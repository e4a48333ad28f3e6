import Tabulation.Catalog.Error
import Tabulation.Catalog.UnionFind
import Tabulation.Ordered.Map

/-! The entity types with their relations as a forest. It grows one relation at a time, and only by relations that
join two trees, so there is at most one path between two entity types. -/
namespace Tabulation.Catalog

/-- For each entity type the positions of its relations, in the order of declaration. -/
abbrev Adjacency := OrderedMap EntityType (List Nat)

namespace Adjacency

def indexes (adjacency : Adjacency) (entity : EntityType) : List Nat := (adjacency.get? entity).getD []

/-- Enters the relation at position `i` at both of its ends. -/
def enter (adjacency : Adjacency) (r : Relation) (i : Nat) : Adjacency :=
  (adjacency.alter r.source fun known => known.getD [] ++ [i]).alter r.target fun known => known.getD [] ++ [i]

def ofRelations (relations : List Relation) : Adjacency :=
  relations.zipIdx.foldl (fun adjacency r => adjacency.enter r.1 r.2) ∅

theorem ofRelations_append_singleton (relations : List Relation) (r : Relation) :
    ofRelations (relations ++ [r]) = (ofRelations relations).enter r relations.length := by
  simp [ofRelations, List.zipIdx_append]

theorem forall_enter (P : EntityType → Nat → Prop) {adjacency : Adjacency} {r : Relation} {i : Nat}
    (hr : P r.source i ∧ P r.target i) (h : ∀ e ∈ adjacency.entries, ∀ j ∈ e.2, P e.1 j) :
    ∀ e ∈ (adjacency.enter r i).entries, ∀ j ∈ e.2, P e.1 j := by
  -- the same at one end
  have halter : ∀ (known : Adjacency) (entity : EntityType), P entity i →
      (∀ e ∈ known.entries, ∀ j ∈ e.2, P e.1 j) →
      ∀ e ∈ (known.alter entity fun at? => at?.getD [] ++ [i]).entries, ∀ j ∈ e.2, P e.1 j := by
    intro known entity hentity hknown e he j hj
    rcases OrderedMap.mem_alterIn he with he | rfl | ⟨e', he', hk, rfl⟩
    · exact hknown e he j hj
    · obtain rfl : j = i := by simpa using hj
      exact hentity
    · have hk' : entity = e'.1 := Std.LawfulEqOrd.eq_of_compare hk
      rcases List.mem_append.1 hj with hj | hj
      · exact hknown e' he' j hj
      · obtain rfl := List.mem_singleton.1 hj
        exact hk' ▸ hentity
  exact halter _ _ hr.2 (halter _ _ hr.1 h)

/-- At the positions of an entity type there are relations that have it at one end. -/
theorem exists_of_mem_indexes {relations : List Relation} {entity : EntityType} {i : Nat}
    (h : i ∈ (ofRelations relations).indexes entity) :
    ∃ r, relations[i]? = some r ∧ (r.source = entity ∨ r.target = entity) := by
  have hfold : ∀ (rs : List (Relation × Nat)) (adjacency : Adjacency),
      (∀ r ∈ rs, relations[r.2]? = some r.1) →
      (∀ e ∈ adjacency.entries, ∀ j ∈ e.2, ∃ r, relations[j]? = some r ∧ (r.source = e.1 ∨ r.target = e.1)) →
      ∀ e ∈ (rs.foldl (fun adjacency r => adjacency.enter r.1 r.2) adjacency).entries, ∀ j ∈ e.2,
        ∃ r, relations[j]? = some r ∧ (r.source = e.1 ∨ r.target = e.1) := by
    intro rs
    induction rs with
    | nil => exact fun _ _ h => h
    | cons r rs ih =>
      intro adjacency hrs h
      have hr := hrs r List.mem_cons_self
      exact ih _ (fun r' hr' => hrs r' (List.mem_cons_of_mem _ hr'))
        (forall_enter (fun e j => ∃ r, relations[j]? = some r ∧ (r.source = e ∨ r.target = e))
          ⟨⟨r.1, hr, .inl rfl⟩, ⟨r.1, hr, .inr rfl⟩⟩ h)
  unfold indexes at h
  cases hlookup : (ofRelations relations).get? entity with
  | none => simp [hlookup] at h
  | some known =>
    rw [hlookup, Option.getD_some] at h
    obtain ⟨before, after, hentries, -⟩ := List.lookup_eq_some_iff.1 hlookup
    refine hfold relations.zipIdx ∅ (fun r hr => List.mem_zipIdx_iff_getElem?.1 hr) (by
      simp [EmptyCollection.emptyCollection, OrderedMap.empty]) (entity, known) ?_ i h
    have hmem : (entity, known) ∈ (ofRelations relations).entries := by simp [hentries]
    exact hmem

end Adjacency

structure Forest where
  /-- The entity types, each with its primary key. -/
  entities : OrderedMap EntityType String
  relations : List Relation
  adjacency : Adjacency
  adjacent : adjacency = .ofRelations relations
deriving DecidableEq

/-- The relations that are entered already, between the entity types of the given names. -/
structure Growth (names : List EntityType) where
  relations : List Relation
  adjacency : Adjacency
  adjacent : adjacency = .ofRelations relations
  /-- The trees that the relations make of the positions of the names. -/
  trees : UnionFind.Parents names.length relations.length

namespace Growth

variable {names : List EntityType}

def start (names : List EntityType) : Growth names := ⟨[], ∅, rfl, .singletons names.length⟩

def enter (g : Growth names) (r : Relation) (trees : UnionFind.Parents names.length (g.relations.length + 1)) :
    Growth names where
  relations := g.relations ++ [r]
  adjacency := g.adjacency.enter r g.relations.length
  adjacent := by rw [Adjacency.ofRelations_append_singleton, ← g.adjacent]
  trees := ⟨trees.parent, by simpa using trees.ends⟩

def addRelation (g : Growth names) (r : Relation) : Except Error (Growth names) :=
  match names.finIdxOf? r.source, names.finIdxOf? r.target with
  | none, _ => .error (.unknownEntity r.source (.relation r.source r.target))
  | some _, none => .error (.unknownEntity r.target (.relation r.source r.target))
  | some source, some target =>
    match g.trees.union? source target with
    | none => .error (.relationCycle r.source r.target)
    | some trees => .ok (g.enter r trees)

end Growth

namespace Forest

def contains (f : Forest) (entity : EntityType) : Bool := (f.entities.get? entity).isSome

def addEntity (entities : OrderedMap EntityType String) (entity : Entity) :
    Except Error (OrderedMap EntityType String) :=
  if (entities.get? entity.name).isSome then .error (.duplicateEntity entity.name)
  else .ok (entities.insert entity.name entity.primaryKey)

/-- The forest of the given entity types and relations. -/
def build (entities : List Entity) (relations : List Relation) : Except Error Forest := do
  let entities ← entities.foldlM addEntity ∅
  let grown ← relations.foldlM Growth.addRelation (.start entities.keys)
  return ⟨entities, grown.relations, grown.adjacency, grown.adjacent⟩

def entity? (f : Forest) (name : EntityType) : Option Entity :=
  (f.entities.get? name).map fun key => ⟨name, key⟩

/-- All entity types by name. -/
def entityList (f : Forest) : List Entity := f.entities.entries.map fun e => ⟨e.1, e.2⟩

/-- The field that identifies the rows of an entity type. -/
def primaryKey (f : Forest) (entity : EntityType) : String :=
  (f.entities.get? entity).getD "id"

end Forest

end Tabulation.Catalog
