import Patchbay.Proofs.Document.Merging

/-!
# Reports account for every entry

A report tells what came in and what was left out. Nothing is lost between the two and nothing is told
twice: an entry of a document either brings in one node or one link, or it is named by exactly one
warning that says why it does not (`Graph.merge_accounted`). Warnings that only remark on an entry, such
as that it repeats an identity or that a field of its node is malformed, come on top of that and decide
nothing.

This holds of every graph, every supply and all node types that warn of fields only; if a node could warn
of entries, it could come in and say that it was left out. Whether the graph is well-formed plays no role,
and neither does whether the supply gives an identity twice or new nodes have the identity that they are
asked for: a node that is refused for the sake of its identity is one that a warning names.

The two loops of the reader are alike, and `Loading.Accounts` says of both what a stretch of entries
comes to. It is proved of one entry and carried along the list.
-/

namespace Patchbay

/-! ## Which entries warnings name -/

namespace LoadWarning

/-- The entry that the warning is about, counted within its list. -/
def index? : LoadWarning → Option Nat
  | .malformedNode i _ | .duplicateNode i _ | .unknownType i _ | .nodeRejected i _ _
  | .malformedLink i | .danglingLink i _ | .linkRejected i _ => some i
  | .missingVersion | .malformedDocument _ | .malformedField _ _ _ => none

/-- The entry that is left out, as the warning says. -/
def leftOut? : LoadWarning → Option Nat
  | .duplicateNode _ _ => none
  | w => w.index?

/-- The warning is about the entry at `index`, and does not say that it is left out. -/
structure Remarks (s : Subject) (index : Nat) (w : LoadWarning) : Prop where
  subject : w.subject = s
  leftOut : w.leftOut? = none
  entry : ∀ i ∈ w.index?, i = index

/-- The warning says that the entry at `index` is left out. -/
structure Excludes (s : Subject) (index : Nat) (w : LoadWarning) : Prop where
  subject : w.subject = s
  leftOut : w.leftOut? = some index
  entry : w.index? = some index

/-- Warnings about one subject, looked through for those about another. -/
theorem filter_subject {s : Subject} {ws : List LoadWarning} (h : ∀ w ∈ ws, w.subject = s)
    (s' : Subject) : ws.filter (fun w => w.subject = s') = if s = s' then ws else [] := by
  split_ifs with hs
  · exact List.filter_eq_self.mpr fun w hw => decide_eq_true ((h w hw).trans hs)
  · exact List.filter_eq_nil_iff.mpr fun w hw => by simpa [h w hw] using hs

/-- A report that ends with the warnings about links. -/
theorem pairwise_subject {front back : List LoadWarning} (hfront : ∀ w ∈ front, w.subject ≠ .link)
    (hback : ∀ w ∈ back, w.subject = .link) :
    (front ++ back).Pairwise fun w w' => w.subject = .link → w'.subject ≠ .node := by
  have hlast : ∀ w' ∈ back, w'.subject ≠ .node := fun w' hw' => by simp [hback w' hw']
  refine List.pairwise_append.mpr ⟨?_, ?_, fun _ _ w' hw' _ => hlast w' hw'⟩
  · exact List.pairwise_of_forall_mem_list fun w hw _ _ hlink => absurd hlink (hfront w hw)
  · exact List.pairwise_of_forall_mem_list fun _ _ w' hw' _ => hlast w' hw'

end LoadWarning

namespace LoadReport

/-- The warnings about one list of the document. -/
def about (r : LoadReport) (s : Subject) : List LoadWarning :=
  r.warnings.filter fun w => w.subject = s

/-- The entries that the report says are left out. -/
def leftOut (r : LoadReport) (s : Subject) : List Nat := (r.about s).filterMap LoadWarning.leftOut?

/-- The entries that the report names, for whatever reason. -/
def named (r : LoadReport) (s : Subject) : List Nat := (r.about s).filterMap LoadWarning.index?

end LoadReport

/-! ## Gaps -/

section Gaps

variable {α : Type}

/-- The positions at which nothing stands; the first position is `k`. -/
def gaps : List (Option α) → Nat → List Nat
  | [], _ => []
  | some _ :: os, k => gaps os (k + 1)
  | none :: os, k => k :: gaps os (k + 1)

theorem le_of_mem_gaps {os : List (Option α)} {k i : Nat} (h : i ∈ gaps os k) : k ≤ i := by
  induction os generalizing k with
  | nil => cases h
  | cons o os ih =>
    cases o with
    | some x => exact Nat.le_of_succ_le (ih h)
    | none =>
      rcases List.mem_cons.mp h with rfl | h
      · exact le_rfl
      · exact Nat.le_of_succ_le (ih h)

/-- A gap is named once, and nothing else is. -/
theorem count_gaps (os : List (Option α)) (k i : Nat) :
    (gaps os k).count (k + i) = if os[i]?.any Option.isNone then 1 else 0 := by
  induction os generalizing k i with
  | nil => rfl
  | cons o os ih =>
    have hbelow : (gaps os (k + 1)).count k = 0 :=
      List.count_eq_zero.mpr fun h => Nat.not_succ_le_self k (le_of_mem_gaps h)
    cases i with
    | zero => cases o <;> simp [gaps, hbelow]
    | succ i =>
      have hrest := ih (k + 1) i
      rw [Nat.add_right_comm, Nat.add_assoc] at hrest
      cases o <;> simp [gaps, hrest]

theorem gaps_append (os os' : List (Option α)) (k : Nat) :
    gaps (os ++ os') k = gaps os k ++ gaps os' (k + os.length) := by
  induction os generalizing k with
  | nil => rfl
  | cons o os ih =>
    have hrest := ih (k + 1)
    rw [Nat.add_right_comm, Nat.add_assoc] at hrest
    cases o <;> simp [gaps, hrest]

end Gaps

namespace Loading

/-! ## What a stretch of entries comes to -/

/-- A stretch of entries from position `k` on gives rise to the warnings `ws` and brings in what stands
in `os`, which has a gap for each entry that is left out. What comes in is related by `R` to its
entry. -/
structure Accounts {α : Type} (R : Json → α → Prop) (s : Subject) (js : List Json) (k : Nat)
    (os : List (Option α)) (ws : List LoadWarning) : Prop where
  restored : List.Forall₂ (fun j o => ∀ x ∈ o, R j x) js os
  subject : ∀ w ∈ ws, w.subject = s
  leftOut : ws.filterMap LoadWarning.leftOut? = gaps os k
  ordered : (ws.filterMap LoadWarning.index?).Pairwise (· ≤ ·)
  within : ∀ i ∈ ws.filterMap LoadWarning.index?, k ≤ i ∧ i < k + js.length

/-- What a report says of one entry: it brings in something, and no warning excludes it, or it brings
in nothing, and exactly one warning excludes it. -/
def Settles {α : Type} (R : Json → α → Prop) (leftOut : List Nat) (entry : Json × Nat) :
    Option α → Prop
  | some x => R entry.1 x ∧ leftOut.count entry.2 = 0
  | none => leftOut.count entry.2 = 1

namespace Accounts

variable {α : Type} {R : Json → α → Prop} {s : Subject}

theorem nil (k : Nat) : Accounts R s [] k [] [] := by
  constructor <;> simp [gaps]

/-- One entry, all warnings naming it if they name any. -/
theorem single {j : Json} {k : Nat} {o : Option α} {ws : List LoadWarning} (hR : ∀ x ∈ o, R j x)
    (hsubject : ∀ w ∈ ws, w.subject = s) (hentry : ∀ w ∈ ws, ∀ i ∈ w.index?, i = k)
    (hleftOut : ws.filterMap LoadWarning.leftOut? = gaps [o] k) : Accounts R s [j] k [o] ws := by
  have hall : ∀ i ∈ ws.filterMap LoadWarning.index?, i = k := fun i hi => by
    obtain ⟨w, hw, hi⟩ := List.mem_filterMap.mp hi
    exact hentry w hw i hi
  refine ⟨.cons hR .nil, hsubject, hleftOut, ?_, fun i hi => ?_⟩
  · refine List.pairwise_of_forall_mem_list fun i hi i' hi' => ?_
    rw [hall i hi, hall i' hi']
  · rw [hall i hi]
    exact ⟨le_rfl, Nat.lt_succ_self k⟩

/-- An entry is left out. -/
theorem leaveOut {ws : List LoadWarning} {w : LoadWarning} {k : Nat}
    (hws : ∀ w ∈ ws, w.Remarks s k) (hw : w.Excludes s k) (j : Json) :
    Accounts R s [j] k [none] (ws ++ [w]) := by
  have hsilent : ws.filterMap LoadWarning.leftOut? = [] :=
    List.filterMap_eq_nil_iff.mpr fun w' hw' => (hws w' hw').leftOut
  refine single (fun _ h => nomatch h) ?_ ?_ ?_
  · exact List.forall_mem_append.mpr
      ⟨fun w' hw' => (hws w' hw').subject, List.forall_mem_singleton.mpr hw.subject⟩
  · refine List.forall_mem_append.mpr
      ⟨fun w' hw' => (hws w' hw').entry, List.forall_mem_singleton.mpr fun i hi => ?_⟩
    exact Option.some.inj (hi.symm.trans hw.entry)
  · simp [hsilent, hw.leftOut, gaps]

/-- An entry is restored. -/
theorem restore {ws : List LoadWarning} {k : Nat} (hws : ∀ w ∈ ws, w.Remarks s k) {j : Json} {x : α}
    (hx : R j x) : Accounts R s [j] k [some x] ws :=
  single (fun _ hy => Option.some.inj hy ▸ hx) (fun w hw => (hws w hw).subject)
    (fun w hw => (hws w hw).entry)
    (List.filterMap_eq_nil_iff.mpr fun w hw => (hws w hw).leftOut)

/-- One stretch after another. -/
theorem append {js js' : List Json} {k : Nat} {os os' : List (Option α)} {ws ws' : List LoadWarning}
    (h : Accounts R s js k os ws) (h' : Accounts R s js' (k + js.length) os' ws') :
    Accounts R s (js ++ js') k (os ++ os') (ws ++ ws') where
  restored := List.rel_append h.restored h'.restored
  subject := List.forall_mem_append.mpr ⟨h.subject, h'.subject⟩
  leftOut := by
    rw [List.filterMap_append, h.leftOut, h'.leftOut, gaps_append, h.restored.length_eq]
  ordered := by
    rw [List.filterMap_append, List.pairwise_append]
    refine ⟨h.ordered, h'.ordered, fun i hi i' hi' => ?_⟩
    exact (h.within i hi).2.le.trans (h'.within i' hi').1
  within := by
    intro i hi
    rw [List.filterMap_append, List.mem_append] at hi
    rw [List.length_append]
    rcases hi with hi | hi
    · have := h.within i hi
      omega
    · have := h'.within i hi
      omega

theorem imp {R' : Json → α → Prop} (hR : ∀ j x, R j x → R' j x) {js : List Json} {k : Nat}
    {os : List (Option α)} {ws : List LoadWarning} (h : Accounts R s js k os ws) :
    Accounts R' s js k os ws :=
  { h with restored := h.restored.imp fun j _ hj x hx => hR j x (hj x hx) }

/-- What comes in has an entry. -/
theorem exists_entry {js : List Json} {k : Nat} {os : List (Option α)} {ws : List LoadWarning}
    (h : Accounts R s js k os ws) {x : α} (hx : x ∈ os.reduceOption) : ∃ j ∈ js, R j x := by
  obtain ⟨i, hi, hget⟩ := List.mem_iff_getElem.mp (List.reduceOption_mem_iff.mp hx)
  obtain ⟨hlength, hrestored⟩ := List.forall₂_iff_get.mp h.restored
  exact ⟨_, List.get_mem js ⟨i, hlength ▸ hi⟩, hrestored i (hlength ▸ hi) hi x hget⟩

/-- Each entry is settled by what the warnings say of it. -/
theorem settles {js : List Json} {os : List (Option α)} {ws : List LoadWarning}
    (h : Accounts R s js 0 os ws) :
    List.Forall₂ (Settles R (ws.filterMap LoadWarning.leftOut?)) js.zipIdx os := by
  obtain ⟨hlength, hrestored⟩ := List.forall₂_iff_get.mp h.restored
  refine List.forall₂_iff_get.mpr ⟨by rw [List.length_zipIdx, hlength], fun i hi hi' => ?_⟩
  have hcount := count_gaps os 0 i
  have hx := hrestored i (hlength ▸ hi') hi'
  rw [h.leftOut]
  simp only [List.get_eq_getElem, List.getElem_zipIdx, Nat.zero_add] at hcount hx ⊢
  rw [List.getElem?_eq_getElem hi'] at hcount
  cases ho : os[i] with
  | none => simpa [Settles, ho] using hcount
  | some x => exact ⟨hx x ho, by simpa [ho] using hcount⟩

end Accounts

/-! ## What comes in -/

/-- Between two states of the reader the nodes `ns` and the links `ls` have come in, and the warnings
`ws` have been given. -/
structure Advances (st st' : Loading) (ns : List Node) (ls : List Link) (ws : List LoadWarning) :
    Prop where
  nodes : st'.graph.nodes = st.graph.nodes ++ ns
  links : st'.graph.links = st.graph.links ++ ls
  warnings : st'.report.warnings = st.report.warnings ++ ws
  listed : st'.report.nodes = st.report.nodes ++ ns.map Node.id
  counted : st'.report.links = st.report.links + ls.length
  distinct : (ns.map Node.id).Nodup
  unused : ∀ n ∈ ns, n.id ∉ st.graph.nodeIds

namespace Advances

variable {st st' st'' : Loading} {ns ns' : List Node} {ls ls' : List Link}
  {ws ws' : List LoadWarning}

theorem refl (st : Loading) : Advances st st [] [] [] := by
  constructor <;> simp

/-- Warnings change nothing but the report. -/
theorem warned (st : Loading) (s : Supply) (ws : List LoadWarning) :
    Advances st ⟨st.graph, s, st.loaded, st.report.warn ws⟩ [] [] ws := by
  constructor <;> simp [LoadReport.warn]

/-- The node of an entry has come in. -/
theorem takeIn {n : Node} {g : Graph} (h : st.graph.addNode n = .ok g) (e : NodeEntry) (s : Supply)
    (ws : List LoadWarning) : Advances st (st.takeIn e n g s ws) [n] [] ws := by
  obtain ⟨-, hnodes, hlinks⟩ := Graph.addNode_parts h
  refine ⟨hnodes, by rw [List.append_nil]; exact hlinks, rfl, rfl, rfl, List.nodup_singleton _, ?_⟩
  rintro n' hn' hused
  obtain rfl := List.mem_singleton.mp hn'
  rw [Graph.addNode, if_pos (Graph.hasNode_iff.mpr hused)] at h
  cases h

theorem trans (h : Advances st st' ns ls ws) (h' : Advances st' st'' ns' ls' ws') :
    Advances st st'' (ns ++ ns') (ls ++ ls') (ws ++ ws') where
  nodes := by rw [h'.nodes, h.nodes, List.append_assoc]
  links := by rw [h'.links, h.links, List.append_assoc]
  warnings := by rw [h'.warnings, h.warnings, List.append_assoc]
  listed := by rw [h'.listed, h.listed, List.map_append, List.append_assoc]
  counted := by rw [h'.counted, h.counted, List.length_append, Nat.add_assoc]
  distinct := by
    rw [List.map_append, List.nodup_append]
    refine ⟨h.distinct, h'.distinct, fun i hi i' hi' heq => ?_⟩
    obtain ⟨n, hn, rfl⟩ := List.mem_map.mp hi'
    refine h'.unused n hn ?_
    rw [Graph.nodeIds, h.nodes, List.map_append]
    exact List.mem_append_right _ (heq ▸ hi)
  unused := by
    intro n hn
    rcases List.mem_append.mp hn with hn | hn
    · exact h.unused n hn
    · refine fun hused => h'.unused n hn ?_
      rw [Graph.nodeIds, h.nodes, List.map_append]
      exact List.mem_append_left _ hused

end Advances

/-! ## Nodes -/

/-- The node is what a new node of the type makes of the entry. -/
def Restores (r : Registry) (j : Json) (n : Node) : Prop :=
  ∃ e, readEntry j = .ok e ∧ ∃ f, r e.typeName = some f ∧
    ∃ id s ws, f.restore id s e.fields = .ok (n, ws)

theorem repeated_remarks (st : Loading) (index : Nat) (d : NodeId) :
    ∀ w ∈ st.repeated index d, w.Remarks .node index := by
  rw [repeated]
  split
  · exact List.forall_mem_singleton.mpr ⟨rfl, rfl, fun i hi => (Option.some.inj hi).symm⟩
  · exact List.forall_mem_nil _

/-- A node that has been restored comes in, or one warning says that the graph refuses it. -/
theorem addNode_accounts {r : Registry} {j : Json} {n : Node} (hn : Restores r j n) {index : Nat}
    {ws : List LoadWarning} (hws : ∀ w ∈ ws, w.Remarks .node index) (st : Loading) (e : NodeEntry)
    (s : Supply) : ∃ o ws', Accounts (Restores r) .node [j] index [o] ws' ∧
      Advances st (addNode ⟨st.graph, s, st.loaded, st.report.warn ws⟩ index e.typeName
        (e.claim st.supply).1 (st.loaded.has (e.claim st.supply).1) n) o.toList [] ws' := by
  cases hadd : st.graph.addNode n with
  | error refusal =>
    refine ⟨none, _, .leaveOut hws (w := .nodeRejected index e.typeName (.graph refusal))
      ⟨rfl, rfl, rfl⟩ j, ?_⟩
    simp only [addNode, hadd, warn, LoadReport.warn, List.append_assoc]
    exact .warned st s _
  | ok g =>
    rw [addNode_eq_takeIn hadd]
    exact ⟨some n, ws, .restore hws hn, .takeIn hadd e s ws⟩

/-- **The entry of a node** brings in one node, or one warning says that it is left out. -/
theorem loadNodeBy_accounts {r : Registry} (hr : r.WarnsOfFields) (st : Loading) (j : Json)
    (index : Nat) : ∃ o ws, Accounts (Restores r) .node [j] index [o] ws ∧
      Advances st (loadNodeBy r st (j, index)) o.toList [] ws := by
  cases hentry : readEntry j with
  | error fault =>
    rw [loadNodeBy_of_error hentry]
    exact ⟨none, _, .leaveOut (w := .malformedNode index fault) (List.forall_mem_nil _)
      ⟨rfl, rfl, rfl⟩ j, .warned st st.supply _⟩
  | ok e =>
    rw [loadNodeBy_of_ok hentry, restoreNodeBy_eq]
    set st₁ : Loading := { st with supply := (e.claim st.supply).2 }
    set d := (e.claim st.supply).1
    have hrepeated := repeated_remarks st₁ index d
    cases hf : r e.typeName with
    | none =>
      exact ⟨none, _, .leaveOut hrepeated ⟨rfl, rfl, rfl⟩ j, .warned st _ _⟩
    | some f =>
      set s := (f.create (st₁.chosen d).1 (st₁.chosen d).2).2
      cases hrestore : f.restore (st₁.chosen d).1 (st₁.chosen d).2 e.fields with
      | error refusal =>
        simp only [hrestore]
        exact ⟨none, _, .leaveOut hrepeated ⟨rfl, rfl, rfl⟩ j, .warned st _ _⟩
      | ok restored =>
        obtain ⟨n, faults⟩ := restored
        have hfaults : ∀ w ∈ faults, w.Remarks .node index := fun w hw => by
          obtain ⟨_, _, _, rfl⟩ := hr _ f hf hrestore w hw
          exact ⟨rfl, rfl, fun i hi => nomatch hi⟩
        have hremarks : ∀ w ∈ st₁.repeated index d ++ faults, w.Remarks .node index :=
          List.forall_mem_append.mpr ⟨hrepeated, hfaults⟩
        simp only [hrestore]
        exact addNode_accounts ⟨e, hentry, f, hf, _, _, _, hrestore⟩ hremarks st e s

/-- The nodes of a document are read. -/
theorem nodes_accounts {r : Registry} (hr : r.WarnsOfFields) (js : List Json) (k : Nat) (st : Loading) :
    ∃ os ws, Accounts (Restores r) .node js k os ws ∧
      Advances st ((js.zipIdx k).foldl (loadNodeBy r) st) os.reduceOption [] ws := by
  induction js generalizing k st with
  | nil => exact ⟨[], [], .nil k, .refl st⟩
  | cons j js ih =>
    obtain ⟨o, ws, haccounts, hadvances⟩ := loadNodeBy_accounts hr st j k
    obtain ⟨os, ws', haccounts', hadvances'⟩ := ih (k + 1) (loadNodeBy r st (j, k))
    have hcons : (o :: os).reduceOption = o.toList ++ os.reduceOption := by cases o <;> rfl
    refine ⟨o :: os, ws ++ ws', haccounts.append haccounts', ?_⟩
    rw [hcons]
    exact hadvances.trans hadvances'

/-! ## Links -/

/-- The link joins the pins that the entry names. -/
def Joins (st : Loading) (j : Json) (l : Link) : Prop :=
  ∃ e, linkEntry? j = some e ∧ st.linkEnds e = .ok (l.fromPin, l.toPin)

/-- Links are found by the nodes and the identities that lead to them. -/
theorem joins_congr {st st' : Loading} (hloaded : st.loaded = st'.loaded)
    (hnodes : st.graph.nodes = st'.graph.nodes) : st.Joins = st'.Joins := by
  have hends : st.linkEnds = st'.linkEnds := by
    funext e
    simp only [linkEnds, hloaded, Graph.findPin?, Graph.node?, hnodes]
  funext j l
  rw [Joins, Joins, hends]

theorem loadLink_loaded (st : Loading) (entry : Json × Nat) :
    (loadLink st entry).loaded = st.loaded := by
  simp only [loadLink]
  split
  · rfl
  · split
    · rfl
    · split <;> rfl

theorem foldl_loadLink_loaded (entries : List (Json × Nat)) (st : Loading) :
    (entries.foldl loadLink st).loaded = st.loaded :=
  List.foldlRecOn (motive := fun st' : Loading => st'.loaded = st.loaded) entries loadLink rfl
    fun st' hst' entry _ => (loadLink_loaded st' entry).trans hst'

/-- **The entry of a link** brings in one link, or one warning says that it is left out. -/
theorem loadLink_accounts (st : Loading) (j : Json) (index : Nat) :
    ∃ o ws, Accounts st.Joins .link [j] index [o] ws ∧
      Advances st (loadLink st (j, index)) [] o.toList ws := by
  have hleaveOut : ∀ w : LoadWarning, w.Excludes .link index →
      ∃ o ws, Accounts st.Joins .link [j] index [o] ws ∧ Advances st (st.warn w) [] o.toList ws :=
    fun w hw => ⟨none, _, .leaveOut (List.forall_mem_nil _) hw j, .warned st st.supply _⟩
  cases hentry : linkEntry? j with
  | none =>
    simp only [loadLink, hentry]
    exact hleaveOut _ ⟨rfl, rfl, rfl⟩
  | some e =>
    cases hends : st.linkEnds e with
    | error missing =>
      simp only [loadLink, hentry, hends]
      exact hleaveOut _ ⟨rfl, rfl, rfl⟩
    | ok ends =>
      cases hlink : st.graph.link st.supply.takeLink.1 ends.1 ends.2 with
      | error reason =>
        simp only [loadLink, hentry, hends, hlink]
        exact hleaveOut _ ⟨rfl, rfl, rfl⟩
      | ok g =>
        obtain ⟨l, -, -, -, -, -, -, hfrom, hto, hg, -⟩ := Graph.link_spec hlink
        simp only [loadLink, hentry, hends, hlink]
        refine ⟨some l, [], .restore (List.forall_mem_nil _) ⟨e, hentry, ?_⟩, ?_⟩
        · rw [hends, hfrom, hto]
        · constructor <;> simp [hg]

/-- The links of a document are read. -/
theorem links_accounts (js : List Json) (k : Nat) (st : Loading) :
    ∃ os ws, Accounts st.Joins .link js k os ws ∧
      Advances st ((js.zipIdx k).foldl loadLink st) [] os.reduceOption ws := by
  induction js generalizing k st with
  | nil => exact ⟨[], [], .nil k, .refl st⟩
  | cons j js ih =>
    obtain ⟨o, ws, haccounts, hadvances⟩ := loadLink_accounts st j k
    obtain ⟨os, ws', haccounts', hadvances'⟩ := ih (k + 1) (loadLink st (j, k))
    have hcons : (o :: os).reduceOption = o.toList ++ os.reduceOption := by cases o <;> rfl
    have hjoins : (loadLink st (j, k)).Joins = st.Joins :=
      joins_congr (loadLink_loaded st (j, k)) (hadvances.nodes.trans (List.append_nil _))
    refine ⟨o :: os, ws ++ ws', haccounts.append (hjoins ▸ haccounts'), ?_⟩
    rw [hcons]
    exact hadvances.trans hadvances'

end Loading

/-! ## Documents -/

/-- A document that is read at all: an object of a version that is known, or of none. -/
def Json.IsAcceptable (doc : Json) : Prop :=
  doc.fields?.isSome ∧ ∀ version, (doc.field? "version").bind (Json.natBelow? 64) = some version →
    version ≤ formatVersion

/-- What the report of merging a document into `g` accounts for. Each entry of a node stands for what
`ns` has in its place: the node that it has brought in, or nothing, and `ls` is the same for links. -/
structure Loading.Accounted (g : Graph) (r : Registry) (doc : Json) (merged : Loading)
    (ns : List (Option Node)) (ls : List (Option Link)) : Prop where
  /-- What has come in stands behind what was there, in the order of the document. -/
  nodes : merged.graph.nodes = g.nodes ++ ns.reduceOption
  links : merged.graph.links = g.links ++ ls.reduceOption
  /-- The entry of a node has brought in a node, or exactly one warning says that it has not. -/
  nodeEntries : List.Forall₂ (Loading.Settles (Loading.Restores r) (merged.report.leftOut .node))
    (doc.listed "nodes").zipIdx ns
  /-- The entry of a link has brought in a link, or exactly one warning says that it has not. -/
  linkEntries : List.Forall₂ (Loading.Settles merged.Joins (merged.report.leftOut .link))
    (doc.listed "links").zipIdx ls
  /-- The report lists the nodes that have come in, in the order of the document. -/
  listed : merged.report.nodes = ns.reduceOption.map Node.id
  distinct : merged.report.nodes.Nodup
  unused : ∀ n ∈ merged.report.nodes, n ∉ g.nodeIds
  /-- The report counts the links that have come in. -/
  counted : merged.report.links = ls.reduceOption.length
  /-- Warnings name entries that are there, in the order of the document. -/
  nodeOrder : (merged.report.named .node).Pairwise (· ≤ ·)
  nodeWithin : ∀ i ∈ merged.report.named .node, i < (doc.listed "nodes").length
  linkOrder : (merged.report.named .link).Pairwise (· ≤ ·)
  linkWithin : ∀ i ∈ merged.report.named .link, i < (doc.listed "links").length
  /-- No warning about a node comes after one about the entry of a link. -/
  nodesFirst : merged.report.warnings.Pairwise fun w w' => w.subject = .link → w'.subject ≠ .node

namespace Graph

/-- Merging accepts exactly the acceptable documents. -/
theorem mergeBy_isOk_iff (g : Graph) (r : Registry) (s : Supply) (doc : Json) :
    (∃ merged, g.mergeBy r s doc = .ok merged) ↔ doc.IsAcceptable := by
  cases hroot : doc.fields? with
  | none => simp [mergeBy, Json.IsAcceptable, hroot]
  | some root =>
    have hfield : doc.field? "version" = root.get? "version" := by
      rw [Json.field?, hroot, Option.bind_some]
    simp only [mergeBy, Json.IsAcceptable, checkFormat, hroot, hfield, Option.isSome_some, true_and]
    cases root.get? "version" with
    | none => simp
    | some j =>
      cases hj : j.natBelow? 64 with
      | none => simp [hj]
      | some found =>
        by_cases hnewer : formatVersion < found
        · simp [hj, hnewer]
        · simp [hj, hnewer, Nat.le_of_not_lt hnewer]

/-- Merging goes through the two lists of the document, and what comes in and what is warned of is what
their entries come to. -/
theorem mergeBy_reads {r : Registry} (hr : r.WarnsOfFields) {g : Graph} {s : Supply} {doc : Json}
    {merged : Loading} (hmerge : g.mergeBy r s doc = .ok merged) :
    ∃ (ns : List (Option Node)) (ls : List (Option Link)) (ws ws₁ bad ws₂ : List LoadWarning),
      (∀ w ∈ ws, w.subject = .document) ∧ (∀ w ∈ bad, w.subject = .document) ∧
      Loading.Accounts (Loading.Restores r) .node (doc.listed "nodes") 0 ns ws₁ ∧
      Loading.Accounts merged.Joins .link (doc.listed "links") 0 ls ws₂ ∧
      Loading.Advances ⟨g, s, [], .empty⟩ merged ns.reduceOption ls.reduceOption
        (ws ++ ws₁ ++ bad ++ ws₂) := by
  rcases mergeBy_cases doc with ⟨e, hrefused⟩ | ⟨ws, bad, hws, hbad, hread⟩
  · rw [hrefused] at hmerge
    cases hmerge
  obtain ⟨st, hst, hread⟩ := hread g r s
  obtain ⟨ns, ws₁, hnodes, hin⟩ := Loading.nodes_accounts hr (doc.listed "nodes") 0
    ⟨g, s, [], LoadReport.empty.warn ws⟩
  rw [← hst] at hin
  obtain ⟨ls, ws₂, hlinks, hin'⟩ := Loading.links_accounts (doc.listed "links") 0
    ⟨st.graph, st.supply, st.loaded, st.report.warn bad⟩
  obtain rfl := Except.ok.inj (hread.symm.trans hmerge)
  have hjoins := Loading.joins_congr (Loading.foldl_loadLink_loaded (doc.listed "links").zipIdx
    ⟨st.graph, st.supply, st.loaded, st.report.warn bad⟩) (hin'.nodes.trans (List.append_nil _))
  refine ⟨ns, ls, ws, ws₁, bad, ws₂, hws, hbad, hnodes, hjoins ▸ hlinks, ?_⟩
  simpa using (Loading.Advances.warned ⟨g, s, [], .empty⟩ s ws).trans
    ((hin.trans (.warned st st.supply bad)).trans hin')

/-- **Reports account for everything.** An acceptable document is merged into any graph, with any node
types whose nodes warn of their fields only, and its report accounts for every entry: what has come in and
what has been left out are the entries of the document, each of them once. -/
theorem merge_accounted {r : Registry} (hr : r.WarnsOfFields) (g : Graph) (s : Supply) {doc : Json}
    (hdoc : doc.IsAcceptable) : ∃ merged ns ls, g.mergeBy r s doc = .ok merged ∧
      Loading.Accounted g r doc merged ns ls := by
  obtain ⟨merged, hmerge⟩ := (mergeBy_isOk_iff g r s doc).mpr hdoc
  obtain ⟨ns, ls, ws, ws₁, bad, ws₂, hws, hbad, hnodes, hlinks, hall⟩ := mergeBy_reads hr hmerge
  have hwarnings : merged.report.warnings = ws ++ ws₁ ++ bad ++ ws₂ := hall.warnings
  have habout : merged.report.about .node = ws₁ ∧ merged.report.about .link = ws₂ := by
    simp only [LoadReport.about, hwarnings, List.filter_append, LoadWarning.filter_subject hws,
      LoadWarning.filter_subject hbad, LoadWarning.filter_subject hnodes.subject,
      LoadWarning.filter_subject hlinks.subject]
    simp
  have hlisted : merged.report.nodes = ns.reduceOption.map Node.id := hall.listed
  have hnodeSettles := hnodes.settles
  have hlinkSettles := hlinks.settles
  exact ⟨merged, ns, ls, hmerge, {
    nodes := hall.nodes
    links := hall.links
    nodeEntries := by rw [LoadReport.leftOut, habout.1]; exact hnodeSettles
    linkEntries := by rw [LoadReport.leftOut, habout.2]; exact hlinkSettles
    listed := hlisted
    distinct := hlisted ▸ hall.distinct
    unused := fun n hn => by
      obtain ⟨m, hm, rfl⟩ := List.mem_map.mp (hlisted ▸ hn)
      exact hall.unused m hm
    counted := hall.counted.trans (Nat.zero_add _)
    nodeOrder := by rw [LoadReport.named, habout.1]; exact hnodes.ordered
    nodeWithin := by
      rw [LoadReport.named, habout.1]
      exact fun i hi => Nat.zero_add (doc.listed "nodes").length ▸ (hnodes.within i hi).2
    linkOrder := by rw [LoadReport.named, habout.2]; exact hlinks.ordered
    linkWithin := by
      rw [LoadReport.named, habout.2]
      exact fun i hi => Nat.zero_add (doc.listed "links").length ▸ (hlinks.within i hi).2
    nodesFirst := by
      rw [hwarnings]
      refine LoadWarning.pairwise_subject (fun w hw => ?_) hlinks.subject
      simp only [List.mem_append] at hw
      rcases hw with (hw | hw) | hw
      · simp [hws w hw]
      · simp [hnodes.subject w hw]
      · simp [hbad w hw] }⟩

/-- A host type without pins. -/
def strayType : ScriptedType where
  info := ⟨"Stray", 1, .internal, "Host"⟩
  display := "Stray"
  pins := []
  flowIn := none
  flowOut := none
  dataIn := []
  dataOut := []
  script := []
  noteReset := false

/-- All nodes of the host type have one identity, whatever they are asked for. -/
def stray : Factory := ⟨fun _ s => (NodeType.scripted strayType).create ⟨.ofNat 9⟩ s, Node.load⟩

theorem stray_warnsOfFields : stray.WarnsOfFields := by
  intro id s fields n ws h
  have hasked : (NodeType.scripted strayType).factory.restore ⟨.ofNat 9⟩ s fields = .ok (n, ws) := h
  exact (NodeType.scripted strayType).factory_regular.warnsOfFields hasked

/-- The types of `hosted` and the stray ones. -/
def unruly : Registry := hosted.register "Stray" stray

theorem unruly_warnsOfFields : unruly.WarnsOfFields :=
  Registry.All.register hosted_regular.warnsOfFields "Stray" stray_warnsOfFields

/-- A document in which most entries fail, each in a way of its own. Of the two switches under one
identity, the second one is of a version to come, and of the two stray nodes only one can come in. -/
def mishaps : Json :=
  let asked := Loading.LinkEntry.toJson ⟨⟨.ofNat 5⟩, "Out", ⟨.ofNat 6⟩, "Condition"⟩
  .ofFields
    [("nodes", .array
        [exampleEntry "Switch" 5 [("on", .ofNat 1)], .null,
          exampleEntry "Switch" 5 [("version", .ofNat 9)], exampleEntry "Mystery" 7 [],
          exampleEntry "Branch" 6 [], exampleEntry "Stray" 10 [], exampleEntry "Stray" 11 []]),
      ("links", .array
        [asked, .null, Loading.LinkEntry.toJson ⟨⟨.ofNat 7⟩, "Out", ⟨.ofNat 6⟩, "Condition"⟩, asked])]

/-- The third entry is named twice, and excluded once. -/
theorem pullAhead_merge_mishaps : unruly.WarnsOfFields ∧ mishaps.IsAcceptable ∧ ∃ merged ns ls,
    pullAhead.mergeBy unruly (.countingFrom 200) mishaps = .ok merged ∧
      Loading.Accounted pullAhead unruly mishaps merged ns ls ∧
      merged.report.nodes = [⟨Supply.randomKind 200⟩, ⟨.ofNat 6⟩, ⟨.ofNat 9⟩] ∧
      merged.report.links = 1 ∧
      merged.report.named .node = [1, 2, 2, 3, 6] ∧ merged.report.leftOut .node = [1, 2, 3, 6] ∧
      merged.report.named .link = [1, 2, 3] ∧ merged.report.leftOut .link = [1, 2, 3] := by
  have hdoc : mishaps.IsAcceptable := ⟨rfl, fun version hversion => by cases hversion⟩
  obtain ⟨merged, ns, ls, hmerge, haccounted⟩ :=
    merge_accounted unruly_warnsOfFields pullAhead (.countingFrom 200) hdoc
  have hcame : (pullAhead.mergeBy unruly (.countingFrom 200) mishaps).toOption.map
      (fun st => (st.report.nodes, st.report.links)) =
        some ([⟨Supply.randomKind 200⟩, ⟨.ofNat 6⟩, ⟨.ofNat 9⟩], 1) := by decide +kernel
  have hwarned : (pullAhead.mergeBy unruly (.countingFrom 200) mishaps).toOption.map
      (fun st => [st.report.named .node, st.report.leftOut .node, st.report.named .link,
        st.report.leftOut .link]) =
          some [[1, 2, 2, 3, 6], [1, 2, 3, 6], [1, 2, 3], [1, 2, 3]] := by decide +kernel
  rw [hmerge] at hcame hwarned
  simp only [Except.toOption, Option.map_some, Option.some.injEq, Prod.mk.injEq, List.cons.injEq,
    and_true] at hcame hwarned
  exact ⟨unruly_warnsOfFields, hdoc, merged, ns, ls, hmerge, haccounted, hcame.1, hcame.2, hwarned⟩

end Graph

end Patchbay
