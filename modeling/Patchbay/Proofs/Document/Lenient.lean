import Patchbay.Proofs.Likeness

/-!
# What a document makes of a node

A node reads its document field by field, and no field depends on another. What becomes of a setting is said by
`Fields.pick`: it is the value of the field, or the setting from before if the field is absent or malformed. What
is reported of a field is said by `Fields.complaint`: that it is there and cannot be read. `Node.restored` and
`Node.complaints` put this together for all fields of a node, and **`Node.restore_lenient`** says that reading a
document comes to just that.

Reading goes by the rules of the node. A single rule is treated by `FieldRule.read_eq`, and the rules of a node
one after the other by induction.
-/

namespace Patchbay

/-! ## Single fields -/

namespace Fields

variable {α β : Type} (fields : Fields) (key : String) (decode : Json → Option α)

/-- What a field makes of a setting: the value that it is read as, or the setting as it was if the field is absent
or malformed. -/
def pick (old : α) : α := ((fields.get? key).bind decode).getD old

/-- What is reported of a field: its fault if it is there and malformed. -/
def complaint (fault : Json → FieldFault) : List (String × FieldFault) :=
  match fields.get? key with
  | none => []
  | some j => if (decode j).isSome then [] else [(key, fault j)]

/-- What a value is used for is no matter of whether it can be read. -/
@[simp] theorem complaint_map (f : α → β) (fault : Json → FieldFault) :
    fields.complaint key (fun j => (decode j).map f) fault = fields.complaint key decode fault := by
  simp [complaint]

variable {fields} in
/-- The type that a document names is the text under its key. -/
theorem typeName?_eq_some {name : String} :
    fields.typeName? = some name ↔ fields.get? "type" = some (.string name) := by
  rw [typeName?, Option.bind_eq_some_iff]
  constructor
  · rintro ⟨j, hj, hname⟩
    cases j with
    | string s => rw [hj, Option.some.inj hname]
    | _ => cases hname
  · intro hj
    exact ⟨_, hj, rfl⟩

end Fields

/-! ## Nodes -/

/-- A document is for the node if it names no other type and is of no newer version. A type that is no text and a
version that is malformed do not count. -/
structure Node.Accepts (n : Node) (fields : Fields) : Prop where
  typeName : ∀ name, fields.get? "type" = some (.string name) → name = n.info.name
  version : ∀ j version, fields.get? "version" = some j → j.natBelow? 32 = some version →
    version ≤ n.info.version

/-- The keys under which a body looks for its settings. -/
def Body.keys : Body → List String
  | .constant _ _ => ["value"]
  | .picture _ _ => ["width", "height", "channels", "fill", "pattern"]
  | .transition _ _ => ["mat_type", "move_type"]
  | .start _ | .finish _ | .branch _ | .scripted _ _ _ => []

/-- The keys of a document that mean something to a node. -/
def Node.keys (n : Node) : List String :=
  ["type", "version", "name", "position", "enabled"] ++ n.body.keys

/-- The settings that a document makes of those of a body. -/
def Body.restored (fields : Fields) : Body → Body
  | .constant out value => .constant out (fields.pick "value" Json.single? value)
  | .picture out s =>
    .picture out
      { width := fields.pick "width" (Json.natBelow? 64) s.width
        height := fields.pick "height" (Json.natBelow? 64) s.height
        channels := fields.pick "channels" (Json.natBelow? 64) s.channels
        fill := fields.pick "fill" Json.single? s.fill
        pattern := fields.pick "pattern" Json.pattern? s.pattern }
  | .transition pins s =>
    .transition pins
      { elementType := fields.pick "mat_type" (fun j => j.int64?.bind ElementType.ofCode?) s.elementType
        move := fields.pick "move_type" (fun j => j.int64?.bind Move.ofCode?) s.move }
  | b => b

/-- The node that a document makes of a node. -/
def Node.restored (n : Node) (fields : Fields) : Node :=
  { n with
    name := fields.pick "name" Json.string? n.name
    position := fields.pick "position" Json.point? n.position
    enabled := fields.pick "enabled" Json.bool? n.enabled
    body := n.body.restored fields }

/-- What is reported of the fields of a body, in the order in which they are read. -/
def Body.complaints (fields : Fields) : Body → List (String × FieldFault)
  | .constant _ _ => fields.complaint "value" Json.single? fun _ => .shape
  | .picture _ _ =>
    (fields.complaint "width" (Json.natBelow? 64) fun _ => .shape) ++
    (fields.complaint "height" (Json.natBelow? 64) fun _ => .shape) ++
    (fields.complaint "channels" (Json.natBelow? 64) fun _ => .shape) ++
    (fields.complaint "fill" Json.single? fun _ => .shape) ++
    (fields.complaint "pattern" Json.pattern? fun _ => .shape)
  | .transition _ _ =>
    fields.complaint "mat_type" (fun j => j.int64?.bind ElementType.ofCode?) .unexpected ++
    fields.complaint "move_type" (fun j => j.int64?.bind Move.ofCode?) .unexpected
  | .start _ | .finish _ | .branch _ | .scripted _ _ _ => []

/-- What is reported of the fields of a node, in the order in which they are read. -/
def Node.complaints (n : Node) (fields : Fields) : List (String × FieldFault) :=
  (fields.complaint "version" (Json.natBelow? 32) fun _ => .shape) ++
  (fields.complaint "name" Json.string? fun _ => .shape) ++
  (fields.complaint "position" Json.point? fun _ => .shape) ++
  (fields.complaint "enabled" Json.bool? fun _ => .shape) ++ n.body.complaints fields

/-! ## Rules -/

namespace FieldRule

variable (fields : Fields)

/-- What reading by a rule makes of a node. -/
def assign (n : Node) (r : FieldRule) : Node :=
  match (fields.get? r.key).bind r.change? with
  | some c => n.apply c
  | none => n

@[simp] theorem assign_id (n : Node) (r : FieldRule) : (assign fields n r).id = n.id := by
  rw [assign]
  split
  · rw [Node.apply_id]
  · rfl

/-- **Reading by one rule** makes its assignment or its complaint. -/
theorem read_eq (n : Node) (ws : List LoadWarning) (r : FieldRule) : read fields (n, ws) r =
    (assign fields n r, ws ++ (fields.complaint r.key r.change? r.fault).map (.ofField n.id)) := by
  rw [read, assign, Fields.complaint]
  cases fields.get? r.key with
  | none => simp
  | some j =>
    cases hchange : r.change? j with
    | none => simp [hchange, LoadWarning.ofField]
    | some c => simp [hchange]

/-- Reading by several rules makes the assignments and the complaints of each. -/
theorem foldl_read_eq (rules : List FieldRule) (n : Node) (ws : List LoadWarning) :
    rules.foldl (read fields) (n, ws) = (rules.foldl (assign fields) n,
      ws ++ (rules.flatMap fun r => fields.complaint r.key r.change? r.fault).map (.ofField n.id)) := by
  induction rules generalizing n ws with
  | nil => simp
  | cons r rules ih =>
    rw [List.foldl_cons, read_eq, ih, assign_id, List.foldl_cons, List.flatMap_cons, List.map_append,
      List.append_assoc]

/-- The assignment of a rule puts what the field makes of the setting in the place of the setting. -/
theorem assign_eq {α : Type} (old : α) {r : FieldRule} {decode : Json → Option α}
    {change : α → NodeChange} (hr : r.change? = fun j => (decode j).map change) {n : Node}
    (hold : n.apply (change old) = n) :
    assign fields n r = n.apply (change (fields.pick r.key decode old)) := by
  rw [assign, Fields.pick, hr]
  cases fields.get? r.key with
  | none => exact hold.symm
  | some j =>
    dsimp only [Option.bind_some]
    cases decode j with
    | none => exact hold.symm
    | some a => rfl

end FieldRule

namespace Node

variable (n : Node) (fields : Fields)

/-- The rules of a node together make the assignments of all its fields. -/
theorem foldl_assign : n.fieldRules.foldl (FieldRule.assign fields) n = n.restored fields := by
  obtain ⟨id, name, position, enabled, body⟩ := n
  have hcommon : ∀ b : Body, commonRules.foldl (FieldRule.assign fields) ⟨id, name, position, enabled, b⟩ =
      ⟨id, fields.pick "name" Json.string? name, fields.pick "position" Json.point? position,
        fields.pick "enabled" Json.bool? enabled, b⟩ := by
    intro b
    rw [commonRules, List.foldl_cons, FieldRule.assign_eq fields name rfl rfl, List.foldl_cons,
      FieldRule.assign_eq fields position rfl rfl, List.foldl_cons,
      FieldRule.assign_eq fields enabled rfl rfl]
    rfl
  rw [fieldRules, List.foldl_append, hcommon]
  cases body with
  | start | finish | branch | scripted => rfl
  | constant out value =>
    rw [Body.fieldRules, List.foldl_cons, FieldRule.assign_eq fields value rfl rfl]
    rfl
  | picture out s =>
    rw [Body.fieldRules, List.foldl_cons, FieldRule.assign_eq fields s.width rfl rfl,
      List.foldl_cons, FieldRule.assign_eq fields s.height rfl rfl,
      List.foldl_cons, FieldRule.assign_eq fields s.channels rfl rfl,
      List.foldl_cons, FieldRule.assign_eq fields s.fill rfl rfl,
      List.foldl_cons, FieldRule.assign_eq fields s.pattern rfl rfl]
    rfl
  | transition pins s =>
    rw [Body.fieldRules, List.foldl_cons, FieldRule.assign_eq fields s.elementType rfl rfl,
      List.foldl_cons, FieldRule.assign_eq fields s.move rfl rfl]
    rfl

/-- The rules of a node together make the complaints of all its fields but the version. -/
theorem complaints_eq : n.complaints fields =
    (fields.complaint "version" (Json.natBelow? 32) fun _ => .shape) ++
      n.fieldRules.flatMap fun r => fields.complaint r.key r.change? r.fault := by
  obtain ⟨_, _, _, _, body⟩ := n
  cases body <;>
    simp [complaints, Body.complaints, fieldRules, commonRules, Body.fieldRules, FieldRule.shaped,
      FieldRule.coded, -Option.map_bind]

/-- The rules of a node look at keys of the node. -/
theorem key_mem_keys {r : FieldRule} (hr : r ∈ n.fieldRules) : r.key ∈ n.keys := by
  have hkeys : n.fieldRules.map FieldRule.key = ["name", "position", "enabled"] ++ n.body.keys := by
    obtain ⟨_, _, _, _, body⟩ := n
    cases body <;> rfl
  have hmem := hkeys ▸ List.mem_map_of_mem hr
  exact List.mem_cons_of_mem _ (List.mem_cons_of_mem _ hmem)

/-! ## Documents that are for the node and others -/

variable {n fields}

/-- A document for the node is accepted, with a complaint if its version is malformed. -/
theorem checkDocument_of_accepts (h : n.Accepts fields) : n.checkDocument fields =
    .ok ((fields.complaint "version" (Json.natBelow? 32) fun _ => .shape).map (.ofField n.id)) := by
  have htype : fields.typeName? = none ∨ fields.typeName? = some n.info.name := by
    cases hname : fields.typeName? with
    | none => exact .inl rfl
    | some name => exact .inr (congrArg some (h.typeName name (Fields.typeName?_eq_some.mp hname)))
  rcases htype with hname | hname
  all_goals
    simp only [checkDocument, hname, if_true, Fields.complaint]
    cases hj : fields.get? "version" with
    | none => rfl
    | some j =>
      dsimp only
      cases hfound : j.natBelow? 32 with
      | none => rfl
      | some found => exact if_neg (Nat.not_lt.mpr (h.version j found hj hfound))

/-- Any other document is refused. -/
theorem checkDocument_of_not_accepts (h : ¬ n.Accepts fields) :
    ∃ e, n.checkDocument fields = .error e := by
  by_contra hno
  refine h ⟨fun name hname => ?_, fun j version hj hversion => ?_⟩
  · by_contra hne
    exact hno ⟨_, by simp only [checkDocument, Fields.typeName?_eq_some.mpr hname, if_neg hne]; rfl⟩
  · by_contra hlt
    refine hno ?_
    simp only [checkDocument, hj, hversion, if_pos (Nat.lt_of_not_le hlt)]
    split
    · split_ifs
      · exact ⟨_, rfl⟩
      · exact ⟨_, rfl⟩
    · exact ⟨_, rfl⟩

/-- A document for the node is read field by field. -/
theorem restore_of_accepts (h : n.Accepts fields) (ws : List LoadWarning) : restore fields (n, ws) =
    (.ok (), n.restored fields, ws ++ (n.complaints fields).map (.ofField n.id)) := by
  rw [restore_eq, checkDocument_of_accepts h]
  dsimp only
  rw [FieldRule.foldl_read_eq, foldl_assign, complaints_eq, List.map_append, List.append_assoc]

/-- Any other document leaves everything as it was. -/
theorem restore_of_not_accepts (h : ¬ n.Accepts fields) (ws : List LoadWarning) :
    ∃ e, restore fields (n, ws) = (.error e, n, ws) := by
  obtain ⟨e, he⟩ := checkDocument_of_not_accepts h
  exact ⟨e, by rw [restore_eq, he]⟩

/-- What it means that a node has been restored from a document. -/
theorem load_eq_ok {m : Node} {ws : List LoadWarning} : n.load fields = .ok (m, ws) ↔
    n.Accepts fields ∧ n.restored fields = m ∧ (n.complaints fields).map (.ofField n.id) = ws := by
  by_cases h : n.Accepts fields
  · simp [load, restore_of_accepts h, h]
  · obtain ⟨e, he⟩ := restore_of_not_accepts h []
    simp [load, he, h]

/-- Reading depends on the known keys alone. -/
theorem restore_congr {fields' : Fields} (h : ∀ key ∈ n.keys, fields'.get? key = fields.get? key)
    (ws : List LoadWarning) : restore fields' (n, ws) = restore fields (n, ws) := by
  have hcheck : n.checkDocument fields' = n.checkDocument fields := by
    simp only [checkDocument, Fields.typeName?, h "type" (by simp [keys]), h "version" (by simp [keys])]
  have hread : ∀ acc r, r ∈ n.fieldRules →
      FieldRule.read fields' acc r = FieldRule.read fields acc r := by
    intro acc r hr
    simp only [FieldRule.read, h r.key (n.key_mem_keys hr)]
  rw [restore_eq, restore_eq, hcheck]
  cases n.checkDocument fields with
  | error e => rfl
  | ok found => exact congrArg (Prod.mk (Except.ok ())) (List.foldl_ext _ _ _ hread)

/-- A document changes settings only. -/
theorem restored_kept (n : Node) (fields : Fields) : (n.restored fields).id = n.id ∧
    (n.restored fields).pins = n.pins ∧ (n.restored fields).info = n.info := by
  obtain ⟨_, _, _, _, body⟩ := n
  cases body <;> exact ⟨rfl, rfl, rfl⟩

/-- **Reading a document is lenient field by field.** A document for the node is always read. Each setting is
then what its own field says, or what it was before if this field is absent or malformed, and each field that is
there and malformed is reported once, in the order of reading, after what has been reported before. Any other
document is refused and leaves everything as it was. The identity and the pins of the node stay the same in any
case, and keys that mean nothing to the node make no difference. -/
theorem restore_lenient (n : Node) (fields : Fields) (ws : List LoadWarning) :
    (n.Accepts fields → restore fields (n, ws) =
      (.ok (), n.restored fields, ws ++ (n.complaints fields).map (.ofField n.id))) ∧
    (¬ n.Accepts fields → ∃ e, restore fields (n, ws) = (.error e, n, ws)) ∧
    (n.restored fields).id = n.id ∧ (n.restored fields).pins = n.pins ∧
    ∀ fields' : Fields, (∀ key ∈ n.keys, fields'.get? key = fields.get? key) →
      restore fields' (n, ws) = restore fields (n, ws) :=
  ⟨fun h => restore_of_accepts h ws, fun h => restore_of_not_accepts h ws, (n.restored_kept fields).1,
    (n.restored_kept fields).2.1, fun _ h => restore_congr h ws⟩

/-- A picture source. -/
def wall : Node :=
  { id := ⟨Uuid.ofNat 1⟩, name := "Mat Source", position := .zero, enabled := true
    body := .picture ⟨Uuid.ofNat 2⟩ .standard }

/-- A document of which much cannot be read. -/
def hasty : Fields :=
  [("enabled", .string "yes"), ("height", .number (.int (-4))), ("name", .string "Wall"),
    ("shade", .bool true), ("type", .null), ("version", .string "2"), ("width", .number (.int 12))]

/-- The picture source gets its name and its width, and it reports the rest that it knows. It refuses the document
if it names the type of end nodes. -/
theorem wall_restored :
    restore hasty (wall, []) = (.ok (),
      { wall with name := "Wall", body := .picture ⟨Uuid.ofNat 2⟩ { Picture.standard with width := 12 } },
      [.malformedField wall.id "version" .shape, .malformedField wall.id "enabled" .shape,
        .malformedField wall.id "height" .shape]) ∧
    ∃ e, restore (("type", .string "End") :: hasty) (wall, []) = (.error e, wall, []) := by
  have haccepts : wall.Accepts hasty := by
    refine ⟨fun name hname => ?_, fun j version hj hversion => ?_⟩
    · have hnull : Json.null = .string name := Option.some.inj hname
      cases hnull
    · obtain rfl : Json.string "2" = j := Option.some.inj hj
      cases hversion
  have hrefuses : ¬ wall.Accepts (("type", .string "End") :: hasty) := fun h =>
    absurd (h.typeName "End" rfl) (by decide)
  exact ⟨(restore_lenient wall hasty []).1 haccepts, (restore_lenient wall _ []).2.1 hrefuses⟩

end Node

end Patchbay
