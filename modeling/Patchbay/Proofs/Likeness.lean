import Patchbay.Proofs.Catalog

/-!
# Nodes that differ in their identities alone

`Node.blank` takes the identities of a node and of its pins away and keeps everything else, so two
nodes are alike exactly if they have the same blank. Alike nodes have alike pins in the same places
and find them by the same names, new nodes of one type are alike, and a document does the same to
alike nodes, down to the warnings, which differ only in the node that they name.
-/

namespace Patchbay

/-! ## Lists side by side -/

section Lists

variable {α β γ : Type}

/-- Lists with equal images agree place by place. -/
theorem forall₂_of_map_eq {f : α → γ} {g : β → γ} {xs : List α} {ys : List β}
    (h : xs.map f = ys.map g) : List.Forall₂ (fun x y => f x = g y) xs ys := by
  rwa [← List.forall₂_eq_eq_eq, List.forall₂_map_left_iff, List.forall₂_map_right_iff] at h

theorem rel_mono {R S : α → β → Prop} (hRS : ∀ x y, R x y → S x y) {o : Option α} {o' : Option β}
    (h : Option.Rel R o o') : Option.Rel S o o' := by
  cases h with
  | none => exact .none
  | some hxy => exact .some (hRS _ _ hxy)

/-- In lists whose items pass a test place by place, the same place is found. -/
theorem find?_rel {P : α → Bool} {Q : β → Bool} {xs : List α} {ys : List β}
    (h : List.Forall₂ (fun x y => P x = Q y) xs ys) :
    Option.Rel (fun x y => (x, y) ∈ xs.zip ys) (xs.find? P) (ys.find? Q) := by
  induction h with
  | nil => exact .none
  | @cons x y xs ys hxy _ ih =>
    rw [List.find?_cons, List.find?_cons, ← hxy]
    cases P x with
    | true => exact .some List.mem_cons_self
    | false => exact rel_mono (fun _ _ hmem => List.mem_cons_of_mem _ hmem) ih

end Lists

/-! ## Taking identities away -/

/-- The pin without its identity. -/
def Pin.blank (p : Pin) : Pin := { p with id := default }

theorem Pin.of_blank {p q : Pin} (h : p.blank = q.blank) :
    p.name = q.name ∧ p.direction = q.direction ∧ p.type = q.type := by
  simp only [blank, mk.injEq] at h
  exact ⟨h.2.1, h.2.2.1, h.2.2.2.1⟩

/-- The body without the identities of its pins. -/
def Body.blank : Body → Body
  | .start _ => .start default
  | .finish _ => .finish ⟨default, default⟩
  | .constant _ value => .constant default value
  | .picture _ settings => .picture default settings
  | .branch _ => .branch ⟨default, default, default, default⟩
  | .transition _ settings =>
    .transition ⟨default, default, default, default, default, default⟩ settings
  | .scripted type inputs outputs =>
    .scripted type (inputs.map Pin.blank) (outputs.map Pin.blank)

/-- The node without its identity and those of its pins. -/
def Node.blank (n : Node) : Node := { n with id := default, body := n.body.blank }

theorem Body.side_blank (b : Body) (d : Direction) : b.blank.side d = (b.side d).map Pin.blank := by
  cases b <;> cases d <;> rfl

theorem Body.info_blank (b : Body) : b.blank.info = b.info := by
  cases b <;> rfl

theorem Node.info_blank (n : Node) : n.blank.info = n.info := n.body.info_blank

theorem Body.apply_blank (c : NodeChange) (b : Body) : (b.apply c).blank = b.blank.apply c := by
  cases c <;> cases b <;> rfl

theorem Node.apply_blank (n : Node) (c : NodeChange) : (n.apply c).blank = n.blank.apply c := by
  have hbody : ∀ c, { n.blank with body := (n.body.apply c).blank } =
      { n.blank with body := n.blank.body.apply c } := fun c => by
    rw [Body.apply_blank]
    rfl
  cases c with
  | name | position | enabled => rfl
  | _ => exact hbody _

/-- Which fields a node reads has nothing to do with its identities. -/
theorem Node.fieldRules_blank (n : Node) : n.blank.fieldRules = n.fieldRules := by
  obtain ⟨_, _, _, _, body⟩ := n
  cases body <;> rfl

/-- New nodes of one type are alike. -/
theorem NodeType.create_blank (t : NodeType) (id id' : NodeId) (s s' : Supply) :
    (t.create id s).1.blank = (t.create id' s').1.blank := by
  have hpins : ∀ (specs : List PinSpec) (s s' : Supply),
      (makePins specs s).1.map Pin.blank = (makePins specs s').1.map Pin.blank := by
    intro specs
    induction specs with
    | nil => exact fun _ _ => rfl
    | cons spec rest ih =>
      exact fun s s' =>
        congrArg (List.cons (spec.toPin default).blank) (ih s.takePin.2 s'.takePin.2)
  cases t with
  | builtin b => cases b <;> rfl
  | scripted t =>
    simp only [create, makeBody, Node.blank, Body.blank]
    rw [hpins _ s s', hpins _ (makePins _ s).2 (makePins _ s').2]

/-! ## Pins of alike nodes -/

namespace Node

variable {a b : Node} (h : a.blank = b.blank)
include h

theorem info_eq_of_blank : a.info = b.info := by
  have hinfo := congrArg Node.info h
  rwa [info_blank, info_blank] at hinfo

/-- The pins of one direction are alike place by place. -/
theorem side_of_blank (d : Direction) :
    (a.body.side d).map Pin.blank = (b.body.side d).map Pin.blank := by
  have hside := congrArg (fun n : Node => n.body.side d) h
  simpa only [blank, Body.side_blank] using hside

theorem pins_of_blank : a.pins.map Pin.blank = b.pins.map Pin.blank := by
  simp only [pins, inputs, outputs, List.map_append]
  exact congrArg₂ _ (side_of_blank h .input) (side_of_blank h .output)

/-- Pins in the same place are alike. -/
theorem pin_of_blank {x : Pin × Pin} (hx : x ∈ a.pins.zip b.pins) : x.1.blank = x.2.blank :=
  (List.forall₂_iff_zip.mp (forall₂_of_map_eq (pins_of_blank h))).2 hx

/-- Pins in the same place of one direction are in the same place among all pins. -/
theorem zip_side_subset (d : Direction) :
    (a.body.side d).zip (b.body.side d) ⊆ a.pins.zip b.pins := by
  have hlen : a.inputs.length = b.inputs.length := by
    have := congrArg List.length (side_of_blank h .input)
    rwa [List.length_map, List.length_map] at this
  rw [pins, pins, List.zip_append hlen]
  cases d with
  | input => exact List.subset_append_left _ _
  | output => exact List.subset_append_right _ _

/-- Alike nodes find the same pin by a name. -/
theorem findPin?_of_blank (d : Direction) (name : String) :
    Option.Rel (fun p q => (p, q) ∈ a.pins.zip b.pins) (a.findPin? d name)
      (b.findPin? d name) := by
  have hnames : List.Forall₂ (fun p q : Pin => (p.name == name) = (q.name == name))
      (a.body.side d) (b.body.side d) := by
    refine (forall₂_of_map_eq (side_of_blank h d)).imp fun p q hpq => ?_
    rw [(Pin.of_blank hpq).1]
  exact rel_mono (fun _ _ hmem => zip_side_subset h d hmem) (find?_rel hnames)

end Node

/-! ## Documents of alike nodes -/

/-- The warning that a node gives of a field. -/
def LoadWarning.ofField (n : NodeId) (f : String × FieldFault) : LoadWarning :=
  .malformedField n f.1 f.2

namespace Node

/-- The type and the version of a document are checked alike. -/
theorem checkDocument_of_info {a b : Node} (h : a.info = b.info) (fields : Fields) :
    (∃ e, a.checkDocument fields = .error e ∧ b.checkDocument fields = .error e) ∨
      ∃ faults : List (String × FieldFault),
        a.checkDocument fields = .ok (faults.map (.ofField a.id)) ∧
        b.checkDocument fields = .ok (faults.map (.ofField b.id)) := by
  simp only [checkDocument, h]
  split
  · split
    · split
      · exact .inr ⟨[], rfl, rfl⟩
      · split
        · exact .inr ⟨[("version", .shape)], rfl, rfl⟩
        · split
          · exact .inl ⟨_, rfl, rfl⟩
          · exact .inr ⟨[], rfl, rfl⟩
    · exact .inl ⟨_, rfl, rfl⟩
  · split
    · exact .inr ⟨[], rfl, rfl⟩
    · split
      · exact .inr ⟨[("version", .shape)], rfl, rfl⟩
      · split
        · exact .inl ⟨_, rfl, rfl⟩
        · exact .inr ⟨[], rfl, rfl⟩

end Node

/-- Two nodes being read are alike and have given the same warnings, each of itself. -/
structure ReadAlike (r r' : Node × List LoadWarning) : Prop where
  alike : r.1.blank = r'.1.blank
  warnings : ∃ faults : List (String × FieldFault),
    r.2 = faults.map (.ofField r.1.id) ∧ r'.2 = faults.map (.ofField r'.1.id)

theorem FieldRule.read_alike (fields : Fields) (rule : FieldRule) {r r' : Node × List LoadWarning}
    (h : ReadAlike r r') : ReadAlike (rule.read fields r) (rule.read fields r') := by
  obtain ⟨halike, faults, hr, hr'⟩ := h
  simp only [read]
  split
  · exact ⟨halike, faults, hr, hr'⟩
  · rename_i j _
    split
    · rename_i c _
      refine ⟨?_, faults, ?_, ?_⟩
      · rw [Node.apply_blank, Node.apply_blank, halike]
      · rw [hr, Node.apply_id]
      · rw [hr', Node.apply_id]
    · refine ⟨halike, faults ++ [(rule.key, rule.fault j)], ?_, ?_⟩
      · rw [hr, List.map_append]
        rfl
      · rw [hr', List.map_append]
        rfl

/-- Two nodes read a document alike: both refuse it for the same reason, or they come to be alike and warn
of the same fields, each of its own. -/
inductive LoadsAlike : Except LoadError (Node × List LoadWarning) →
    Except LoadError (Node × List LoadWarning) → Prop
  | refused (e : LoadError) : LoadsAlike (.error e) (.error e)
  | restored {r r' : Node × List LoadWarning} (alike : ReadAlike r r') : LoadsAlike (.ok r) (.ok r')

namespace LoadsAlike

theorem eq_error {e : LoadError} {y : Except LoadError (Node × List LoadWarning)}
    (h : LoadsAlike (.error e) y) : y = .error e := by
  cases h
  rfl

theorem exists_ok {r : Node × List LoadWarning} {y : Except LoadError (Node × List LoadWarning)}
    (h : LoadsAlike (.ok r) y) : ∃ r', y = .ok r' ∧ ReadAlike r r' := by
  cases h with
  | restored alike => exact ⟨_, rfl, alike⟩

end LoadsAlike

/-- A document does the same to alike nodes. -/
theorem Node.load_alike {a b : Node} (h : a.blank = b.blank) (fields : Fields) :
    LoadsAlike (a.load fields) (b.load fields) := by
  have hrules : ∀ (rules : List FieldRule) (r r' : Node × List LoadWarning), ReadAlike r r' →
      ReadAlike (rules.foldl (FieldRule.read fields) r) (rules.foldl (FieldRule.read fields) r') := by
    intro rules
    induction rules with
    | nil => exact fun _ _ hr => hr
    | cons rule rest ih => exact fun r r' hr => ih _ _ (rule.read_alike fields hr)
  have hbody : a.fieldRules = b.fieldRules := by
    rw [← fieldRules_blank, h, fieldRules_blank]
  rw [load_eq, load_eq]
  rcases checkDocument_of_info (info_eq_of_blank h) fields with ⟨e, ha, hb⟩ | ⟨faults, ha, hb⟩
  · rw [ha, hb]
    exact .refused e
  · rw [ha, hb, hbody]
    exact .restored (hrules _ _ _ ⟨h, faults, rfl, rfl⟩)

end Patchbay
