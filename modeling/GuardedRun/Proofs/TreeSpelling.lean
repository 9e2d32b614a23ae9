import GuardedRun.Engine.ScenarioTree
import Mathlib.Data.List.Perm.Basic
import Mathlib.Data.List.Nodup

/-! Spellings of scenario trees. A node may be written in several ways, and all of them are read alike;
whatever is read has nothing but proper leaves and groups in it, at any depth. -/

namespace GuardedRun

namespace Json

variable {key : String} {value : Json} {keys : List String} {known members : List (String × Json)}

/-- The members are the known ones in any order, and any others of other keys. -/
def Comprises (keys : List String) (known members : List (String × Json)) : Prop :=
  ∃ others, members.Perm (known ++ others) ∧ ∀ m ∈ others, m.1 ∉ keys

/-- What stands for a field of a record: under its key in an object, at its place in an array. -/
def field (key : String) (place : Nat) : Json → Option Json
  | .obj members => lookup key members
  | .arr items => items[place]?
  | _ => none

theorem lookup_filter (key : String) (members : List (String × Json)) :
    lookup key (members.filter (·.1 = key)) = lookup key members := by
  induction members with
  | nil => rfl
  | cons m rest ih =>
    obtain ⟨k, v⟩ := m
    by_cases hk : k = key
    · simp [hk, lookup]
    · simpa [hk, lookup] using ih

/-- The members of a node are looked up as if the known ones stood alone. -/
theorem Comprises.lookup_eq (h : Comprises keys known members) (hkey : key ∈ keys)
    (hnodup : (known.map (·.1)).Nodup) : lookup key members = lookup key known := by
  obtain ⟨others, hperm, hothers⟩ := h
  have hnone : others.filter (·.1 = key) = [] := by
    rw [List.filter_eq_nil_iff]
    intro m hm hk
    exact hothers m hm (of_decide_eq_true hk ▸ hkey)
  have hfilter : (members.filter (·.1 = key)).Perm (known.filter (·.1 = key)) := by
    have hboth := hperm.filter (·.1 = key)
    rwa [List.filter_append, hnone, List.append_nil] at hboth
  have hone : (known.filter (·.1 = key)).length ≤ 1 := by
    have hcount := List.nodup_iff_count_le_one.mp hnodup key
    rw [List.count, List.countP_map, List.countP_eq_length_filter] at hcount
    simpa [Function.comp_def, beq_eq_decide] using hcount
  -- at most one member has the key, so the order is immaterial
  have hsame : members.filter (·.1 = key) = known.filter (·.1 = key) := by
    generalize known.filter (·.1 = key) = found at hfilter hone
    match found, hone with
    | [], _ => exact hfilter.eq_nil
    | [m], _ => exact List.perm_singleton.mp hfilter
  rw [← lookup_filter, hsame, lookup_filter]

end Json

namespace Wire

open Json

section

variable {α β : Type}

theorem bind_eq_ok {x : Except Fault α} {f : α → Except Fault β} {b : β} :
    x >>= f = .ok b ↔ ∃ a, x = .ok a ∧ f a = .ok b := by
  cases x with
  | error fault => exact ⟨nofun, nofun⟩
  | ok a =>
    constructor
    · intro h
      exact ⟨a, rfl, h⟩
    · rintro ⟨a', ha, h⟩
      cases ha
      exact h

theorem map_eq_ok {x : Except Fault α} {f : α → β} {b : β} :
    x.map f = .ok b ↔ ∃ a, x = .ok a ∧ f a = b := by
  cases x <;> simp [Except.map]

variable {f : Field α} {g : Field β}

/-- A field without a default is read where there is something for it. -/
theorem Field.read_require {found : Option Json} {a : α} {o : Option α} (hf : f.default? = none)
    (hread : f.read found = .ok o) (hrequire : f.require o = .ok a) :
    ∃ j, found = some j ∧ f.decode j = .ok a := by
  cases found with
  | none =>
    obtain rfl : f.default? = o := Except.ok.inj hread
    rw [hf] at hrequire
    cases hrequire
  | some j =>
    obtain ⟨b, hb, rfl⟩ := map_eq_ok.mp hread
    cases hrequire
    exact ⟨j, rfl, hb⟩

/-- A record that was read has something for each of its fields. -/
theorem record₂_eq_ok {j : Json} {a : α} {b : β} (hf : f.default? = none) (hg : g.default? = none)
    (h : record₂ f g j = .ok (a, b)) :
    (∃ ja, j.field f.key 0 = some ja ∧ f.decode ja = .ok a) ∧
      ∃ jb, j.field g.key 1 = some jb ∧ g.decode jb = .ok b := by
  cases j with
  | obj members =>
    obtain ⟨oa, hoa, h⟩ := bind_eq_ok.mp h
    obtain ⟨ob, hob, h⟩ := bind_eq_ok.mp h
    obtain ⟨a', ha, h⟩ := bind_eq_ok.mp h
    obtain ⟨b', hb, h⟩ := bind_eq_ok.mp h
    cases h
    exact ⟨Field.read_require hf hoa ha, Field.read_require hg hob hb⟩
  | arr items =>
    obtain ⟨oa, hoa, h⟩ := bind_eq_ok.mp h
    obtain ⟨ob, hob, h⟩ := bind_eq_ok.mp h
    obtain ⟨a', ha, h⟩ := bind_eq_ok.mp h
    obtain ⟨b', hb, h⟩ := bind_eq_ok.mp h
    -- a surplus of fields is noticed last
    split at h
    · cases h
      exact ⟨Field.read_require hf hoa ha, Field.read_require hg hob hb⟩
    · cases h
  | _ => cases h

end

theorem text_eq_ok {j : Json} {s : String} : text j = .ok s ↔ j = .str s := by
  cases j <;> simp [text]

theorem name_eq_ok {kind : NameKind} {j : Json} {n : Name kind} :
    name kind j = .ok n ↔ j = .str n.text := by
  constructor
  · intro h
    obtain ⟨raw, hraw, h⟩ := bind_eq_ok.mp h
    -- a text that is read as a name is the text of that name
    cases hparse : (Name.parse raw : Except NameFault (Name kind)) with
    | error fault =>
      rw [hparse] at h
      cases h
    | ok m =>
      rw [hparse] at h
      cases h
      rw [text_eq_ok.mp hraw, Name.parse_eq_ok_iff.mp hparse]
  · rintro rfl
    refine bind_eq_ok.mpr ⟨n.text, rfl, ?_⟩
    rw [Name.parse_text]

theorem objectId_eq_ok {j : Json} {id : ObjectId} : objectId j = .ok id ↔ j = id.toJson := by
  constructor
  · intro h
    obtain ⟨s, hs, rfl⟩ := map_eq_ok.mp h
    exact text_eq_ok.mp hs
  · rintro rfl
    rfl

theorem field_of_scenario {j : Json} {s : Scenario} (h : scenario j = .ok s) :
    j.field "id" 0 = some s.id.toJson ∧ j.field "name" 1 = some (.str s.name.text) := by
  obtain ⟨⟨id, name⟩, hrecord, rfl⟩ := map_eq_ok.mp h
  obtain ⟨⟨ja, hja, hid⟩, jb, hjb, hname⟩ :=
    record₂_eq_ok (f := idField) (g := nameField .scenario) rfl rfl hrecord
  rw [objectId_eq_ok.mp hid] at hja
  rw [name_eq_ok.mp hname] at hjb
  exact ⟨hja, hjb⟩

theorem scenario_of_lookup {members : List (String × Json)} {s : Scenario}
    (hid : lookup "id" members = some s.id.toJson)
    (hname : lookup "name" members = some (.str s.name.text)) : scenario (.obj members) = .ok s := by
  have hread : (nameField .scenario).decode (.str s.name.text) = .ok s.name := name_eq_ok.mpr rfl
  refine map_eq_ok.mpr ⟨(s.id, s.name), ?_, rfl⟩
  change (do
    let a ← idField.read (lookup "id" members)
    let b ← (nameField .scenario).read (lookup "name" members)
    return (← idField.require a, ← (nameField .scenario).require b)) = _
  rw [hid, hname, Field.read, Field.read, hread]
  rfl

theorem scenario_of_fields (s : Scenario) :
    scenario (.arr [s.id.toJson, .str s.name.text]) = .ok s := by
  have hread : (nameField .scenario).decode (.str s.name.text) = .ok s.name := name_eq_ok.mpr rfl
  refine map_eq_ok.mpr ⟨(s.id, s.name), ?_, rfl⟩
  change (do
    let a ← idField.read (some s.id.toJson)
    let b ← (nameField .scenario).read (some (.str s.name.text))
    let a ← idField.require a
    let b ← (nameField .scenario).require b
    return (a, b)) = _
  rw [Field.read, Field.read, hread]
  rfl

/-! ### Nodes, by the ways to write them -/

/-- The value says which kind of node it is. -/
def Says (nested : Bool) (kind : NodeKind) (j : Json) : Prop :=
  ∃ k, j.field "kind" 0 = some k ∧ nodeKind nested k = .ok kind

/-- Reads what stands for the children of a group; they may be missing. -/
def children : Option Json → Except Fault (List ScenarioNode)
  | none => .ok []
  | some (.arr items) => forest true items
  | some _ => .error (.malformed "an array")

section

variable {nested : Bool} {members : List (String × Json)} {k : Json} {fields : List Json}

theorem node_leaf_members (hkind : lookup "kind" members = some k)
    (hleaf : nodeKind nested k = .ok .scenario) :
    node nested (.obj members) = (scenario (.obj members)).map .scenario := by
  rw [node, hkind]
  dsimp only
  rw [hleaf]
  rfl

theorem node_group_members (hkind : lookup "kind" members = some k)
    (hgroup : nodeKind nested k = .ok .group) :
    node nested (.obj members) = (do
      let inner ← children (lookup "children" members)
      match lookup "name" members with
      | none => throw (.malformed "a field name")
      | some name => return .group (← text name) inner) := by
  rw [node, hkind]
  dsimp only
  rw [hgroup]
  simp only [bind, Except.bind]
  split
  · next hnone =>
    rw [hnone]
    rfl
  · next items hitems =>
    rw [hitems]
    rfl
  · next other hother hfound =>
    rw [hfound]
    cases other with
    | arr items => exact absurd rfl (hother items)
    | _ => rfl

/-- Reads a group from its fields in their order. -/
def groupOfFields : List Json → Except Fault ScenarioNode
  | [] => throw (.malformed "a field name")
  | [name] => return .group (← text name) []
  | name :: .arr items :: surplus => do
    let name ← text name
    let inner ← forest true items
    if surplus.isEmpty then return .group name inner else throw (.malformed "two fields")
  | _ => throw (.malformed "an array")

theorem node_fields (nested : Bool) (k : Json) (fields : List Json) :
    node nested (.arr (k :: fields)) = (do
      match ← nodeKind nested k with
      | .scenario => (scenario (.arr fields)).map .scenario
      | .group => groupOfFields fields) := by
  rw [node.eq_def]
  rfl

end

/-- A node that is fit to be read: a leaf with a text for its id and a name without a fault, or a group
with a text for its name. -/
inductive Proper (nested : Bool) (j : Json) : Prop
  | leaf (id name : String) (kind : Says nested .scenario j) (hasId : j.field "id" 1 = some (.str id))
    (hasName : j.field "name" 2 = some (.str name)) (faultless : nameFault? name = none)
  | group (name : String) (kind : Says nested .group j) (hasName : j.field "name" 1 = some (.str name))

/-- A node stands somewhere in a list of nodes, at any depth. Beneath the top it is inside of a group. -/
inductive Stands (items : List Json) : Bool → Json → Prop
  | top {j} (mem : j ∈ items) : Stands items false j
  | inside {nested group inner j} (outer : Stands items nested group)
    (kind : Says nested .group group) (holds : group.field "children" 2 = some (.arr inner))
    (mem : j ∈ inner) : Stands items true j

variable {nested : Bool} {j : Json} {n : ScenarioNode}

theorem Says.unique {kind kind' : NodeKind} (h : Says nested kind j) (h' : Says nested kind' j) :
    kind = kind' := by
  obtain ⟨k, hk, hkind⟩ := h
  obtain ⟨k', hk', hkind'⟩ := h'
  rw [hk, Option.some.injEq] at hk'
  rw [← hk', hkind] at hkind'
  exact Except.ok.inj hkind'

/-- What was read is proper, and so is what was read inside of it. -/
theorem proper_of_node (h : node nested j = .ok n) :
    Proper nested j ∧ (Says nested .group j → ∃ inner, children (j.field "children" 2) = .ok inner) := by
  cases j with
  | obj members =>
    cases hkind : lookup "kind" members with
    | none =>
      rw [node, hkind] at h
      cases h
    | some k =>
    cases hk : nodeKind nested k with
    | error fault =>
      rw [node, hkind] at h
      dsimp only at h
      rw [hk] at h
      cases h
    | ok kind =>
    have hsays : Says nested kind (.obj members) := ⟨k, hkind, hk⟩
    cases kind with
    | scenario =>
      rw [node_leaf_members hkind hk] at h
      obtain ⟨s, hs, -⟩ := map_eq_ok.mp h
      obtain ⟨hid, hname⟩ := field_of_scenario hs
      exact ⟨.leaf s.id.text s.name.text hsays hid hname s.name.valid,
        fun hgroup => by cases hsays.unique hgroup⟩
    | group =>
      rw [node_group_members hkind hk] at h
      obtain ⟨inner, hinner, h⟩ := bind_eq_ok.mp h
      cases hname : lookup "name" members with
      | none =>
        rw [hname] at h
        cases h
      | some jn =>
        rw [hname] at h
        obtain ⟨name, htext, -⟩ := bind_eq_ok.mp h
        rw [text_eq_ok.mp htext] at hname
        exact ⟨.group name hsays hname, fun _ => ⟨inner, hinner⟩⟩
  | arr items =>
    cases items with
    | nil =>
      rw [node.eq_def] at h
      cases h
    | cons k fields =>
    rw [node_fields] at h
    obtain ⟨kind, hk, h⟩ := bind_eq_ok.mp h
    have hsays : Says nested kind (.arr (k :: fields)) := ⟨k, rfl, hk⟩
    cases kind with
    | scenario =>
      obtain ⟨s, hs, -⟩ := map_eq_ok.mp h
      obtain ⟨hid, hname⟩ := field_of_scenario hs
      exact ⟨.leaf s.id.text s.name.text hsays hid hname s.name.valid,
        fun hgroup => by cases hsays.unique hgroup⟩
    | group =>
      -- the name comes first, then perhaps the children, and then nothing
      rcases fields with _ | ⟨jn, _ | ⟨jc, surplus⟩⟩
      · cases h
      · obtain ⟨name, htext, -⟩ := bind_eq_ok.mp h
        rw [text_eq_ok.mp htext] at hsays ⊢
        exact ⟨.group name hsays rfl, fun _ => ⟨[], rfl⟩⟩
      · cases jc with
        | arr inner =>
          obtain ⟨name, htext, h⟩ := bind_eq_ok.mp h
          obtain ⟨cs, hcs, -⟩ := bind_eq_ok.mp h
          rw [text_eq_ok.mp htext] at hsays ⊢
          exact ⟨.group name hsays rfl, fun _ => ⟨cs, hcs⟩⟩
        | _ => cases h
  | _ =>
    rw [node.eq_def] at h
    cases h

theorem node_of_forest {items : List Json} {ns : List ScenarioNode}
    (h : forest nested items = .ok ns) : ∀ j ∈ items, ∃ n, node nested j = .ok n := by
  induction items generalizing ns with
  | nil => exact nofun
  | cons j rest ih =>
    rw [forest] at h
    obtain ⟨n, hn, h⟩ := bind_eq_ok.mp h
    obtain ⟨others, hothers, -⟩ := bind_eq_ok.mp h
    intro j' hj'
    rcases List.mem_cons.mp hj' with rfl | hj'
    · exact ⟨n, hn⟩
    · exact ih hothers j' hj'

theorem node_of_stands {items : List Json} {ns : List ScenarioNode}
    (h : forest false items = .ok ns) (hj : Stands items nested j) : ∃ n, node nested j = .ok n := by
  induction hj with
  | top mem => exact node_of_forest h _ mem
  | inside outer kind holds mem ih =>
    obtain ⟨n, hn⟩ := ih
    obtain ⟨inner, hinner⟩ := (proper_of_node hn).2 kind
    rw [holds] at hinner
    exact node_of_forest hinner _ mem

/-! ### Nodes, by the ways to spell them -/

mutual

/-- A value is one of the spellings of a node: an object with members in any order and with others that
nobody asked for, or an array that begins with the kind. Where a group has no children they need not be
there. -/
inductive Spells : ScenarioNode → Json → Prop
  | leafMembers (s : Scenario) {members} (comprises : Comprises ["id", "kind", "name"]
      [("id", s.id.toJson), ("kind", .str "scenario"), ("name", .str s.name.text)] members) :
    Spells (.scenario s) (.obj members)
  | leafFields (s : Scenario) : Spells (.scenario s) (.arr [.str "scenario", s.id.toJson, .str s.name.text])
  | groupMembers (name : String) {inner items members} (each : SpellsAll inner items)
    (comprises : Comprises ["children", "kind", "name"]
      [("children", .arr items), ("kind", .str "group"), ("name", .str name)] members) :
    Spells (.group name inner) (.obj members)
  | bareMembers (name : String) {members} (comprises : Comprises ["children", "kind", "name"]
      [("kind", .str "group"), ("name", .str name)] members) :
    Spells (.group name []) (.obj members)
  | groupFields (name : String) {inner items} (each : SpellsAll inner items) :
    Spells (.group name inner) (.arr [.str "group", .str name, .arr items])
  | bareFields (name : String) : Spells (.group name []) (.arr [.str "group", .str name])

inductive SpellsAll : List ScenarioNode → List Json → Prop
  | nil : SpellsAll [] []
  | cons {n ns j js} (first : Spells n j) (rest : SpellsAll ns js) : SpellsAll (n :: ns) (j :: js)

end

mutual

/-- All spellings of a node are read as that node. -/
theorem node_of_spells (nested : Bool) (n : ScenarioNode) (j : Json) (h : Spells n j) :
    node nested j = .ok n := by
  cases h with
  | @leafMembers s members comprises =>
    have hkind : lookup "kind" members = some (.str "scenario") := by simp [comprises.lookup_eq, lookup]
    have hid : lookup "id" members = some s.id.toJson := by simp [comprises.lookup_eq, lookup]
    have hname : lookup "name" members = some (.str s.name.text) := by
      simp [comprises.lookup_eq, lookup]
    rw [node_leaf_members hkind rfl, scenario_of_lookup hid hname]
    rfl
  | leafFields s =>
    rw [node_fields, scenario_of_fields]
    rfl
  | @groupMembers name inner items members each comprises =>
    have hkind : lookup "kind" members = some (.str "group") := by simp [comprises.lookup_eq, lookup]
    have hchildren : lookup "children" members = some (.arr items) := by
      simp [comprises.lookup_eq, lookup]
    have hname : lookup "name" members = some (.str name) := by simp [comprises.lookup_eq, lookup]
    have hinner := forest_of_spells true inner items each
    rw [node_group_members hkind rfl, hchildren, hname, children, hinner]
    rfl
  | @bareMembers name members comprises =>
    have hkind : lookup "kind" members = some (.str "group") := by simp [comprises.lookup_eq, lookup]
    -- without the member there are no children
    have hchildren : lookup "children" members = none := by simp [comprises.lookup_eq, lookup]
    have hname : lookup "name" members = some (.str name) := by simp [comprises.lookup_eq, lookup]
    rw [node_group_members hkind rfl, hchildren, hname]
    rfl
  | @groupFields name inner items each =>
    have hinner := forest_of_spells true inner items each
    rw [node_fields, groupOfFields, hinner]
    rfl
  | bareFields name =>
    rw [node_fields]
    rfl

theorem forest_of_spells (nested : Bool) (ns : List ScenarioNode) (js : List Json)
    (h : SpellsAll ns js) : forest nested js = .ok ns := by
  cases h with
  | nil => rw [forest]
  | cons first rest =>
    rw [forest, node_of_spells nested _ _ first, forest_of_spells nested _ _ rest]
    rfl

end

mutual

/-- The wire form is a spelling. -/
theorem spells_toJson : (n : ScenarioNode) → Spells n n.toJson
  | .scenario s => .leafMembers s ⟨[], List.append_nil _ ▸ List.Perm.refl _, nofun⟩
  | .group name inner =>
    .groupMembers name (spells_forestToJson inner) ⟨[], List.append_nil _ ▸ List.Perm.refl _, nofun⟩

theorem spells_forestToJson : (ns : List ScenarioNode) → SpellsAll ns (ScenarioNode.forestToJson ns)
  | [] => .nil
  | n :: ns => .cons (spells_toJson n) (spells_forestToJson ns)

end

/-- A tree survives the wire in whatever way it is spelled, and only proper nodes get in: one leaf
without a name that is fit to be one, at any depth, and nothing is read. -/
theorem scenarioTree_spelled :
    (∀ ns, scenarioTree (.arr (ScenarioNode.forestToJson ns)) = .ok ns) ∧
    (∀ ns js, SpellsAll ns js → scenarioTree (.arr js) = .ok ns) ∧
    (∀ j ns, scenarioTree j = .ok ns →
      ∃ items, j = .arr items ∧ ∀ nested node, Stands items nested node → Proper nested node) ∧
    ∀ items nested leaf, Stands items nested leaf → Says nested .scenario leaf →
      (∀ name : ScenarioName, leaf.field "name" 2 ≠ some (.str name.text)) →
        ∃ fault, scenarioTree (.arr items) = .error fault := by
  have hspelled (ns : List ScenarioNode) (js : List Json) (h : SpellsAll ns js) :
      scenarioTree (.arr js) = .ok ns :=
    forest_of_spells false ns js h
  have hproper (items : List Json) (ns : List ScenarioNode) (h : scenarioTree (.arr items) = .ok ns)
      (nested : Bool) (node : Json) (hstands : Stands items nested node) : Proper nested node := by
    obtain ⟨n, hn⟩ := node_of_stands h hstands
    exact (proper_of_node hn).1
  refine ⟨fun ns => hspelled ns _ (spells_forestToJson ns), hspelled, ?_, ?_⟩
  · intro j ns h
    cases j with
    | arr items => exact ⟨items, rfl, hproper items ns h⟩
    | _ => cases h
  · intro items nested leaf hstands hsays hnameless
    cases hread : scenarioTree (.arr items) with
    | error fault => exact ⟨fault, rfl⟩
    | ok ns =>
      -- what is read has a proper leaf here, and a proper leaf has a name
      cases hproper items ns hread nested leaf hstands with
      | leaf id name kind hasId hasName faultless => exact absurd hasName (hnameless ⟨name, faultless⟩)
      | group name kind hasName => nomatch hsays.unique kind

/-- A forest in which an empty group and a leaf stand in a group. -/
def paymentsForest : List ScenarioNode :=
  [.group "Payments" [.group "Empty" [], .scenario ⟨⟨"s-1"⟩, ⟨"Refund", by decide +kernel⟩⟩]]

/-- The forest with its members out of order, members nobody asked for, and an array for the leaf. -/
def paymentsJson : List Json :=
  [.obj [("name", .str "Payments"), ("colour", .str "red"),
    ("children", .arr [.obj [("kind", .str "group"), ("id", .null), ("name", .str "Empty")],
      .arr [.str "scenario", .str "s-1", .str "Refund"]]),
    ("kind", .str "group")]]

/-- A padded name in a group of a group. -/
def paddedJson : List Json :=
  [.arr [.str "group", .str "Payments", .arr [.obj [("kind", .str "group"), ("name", .str "Cards"),
    ("children", .arr [.arr [.str "scenario", .str "s-1", .str " Refund"]])]]]]

theorem payments_read : SpellsAll paymentsForest paymentsJson ∧
    scenarioTree (.arr paymentsJson) = .ok paymentsForest ∧
    ∃ fault, scenarioTree (.arr paddedJson) = .error fault := by
  obtain ⟨-, hspelled, -, hnameless⟩ := scenarioTree_spelled
  have hinner : SpellsAll [.group "Empty" [], .scenario ⟨⟨"s-1"⟩, ⟨"Refund", by decide +kernel⟩⟩]
      [.obj [("kind", .str "group"), ("id", .null), ("name", .str "Empty")],
        .arr [.str "scenario", .str "s-1", .str "Refund"]] := by
    refine .cons (.bareMembers "Empty" ⟨[("id", .null)], ?_, by simp⟩) (.cons (.leafFields _) .nil)
    exact .cons _ (.swap _ _ _)
  have houter : SpellsAll paymentsForest paymentsJson := by
    refine .cons (.groupMembers "Payments" hinner ⟨[("colour", .str "red")], ?_, by simp⟩) .nil
    exact @List.perm_append_comm _ [_, _] [_, _]
  refine ⟨houter, hspelled _ _ houter, ?_⟩
  have htop : Stands paddedJson false _ := .top List.mem_cons_self
  have hgroup : Stands paddedJson true _ := .inside htop ⟨_, rfl, rfl⟩ rfl List.mem_cons_self
  have hleaf : Stands paddedJson true _ := .inside hgroup ⟨_, rfl, rfl⟩ rfl List.mem_cons_self
  apply hnameless _ _ _ hleaf ⟨_, rfl, rfl⟩
  rintro ⟨name, hvalid⟩ heq
  obtain rfl : " Refund" = name := Json.str.inj (Option.some.inj heq)
  exact absurd hvalid (by decide +kernel)

end Wire

end GuardedRun
