import Tabulation.Proofs.Plan.Joins

/-! One aggregation more. It comes last in its part and leaves the others where they are, so main rows
and sub-expressions at most take further steps, which do not fan out. -/
namespace Tabulation
open Catalog (FanOutKey)
open Query (Model Aggregation)
open Outcome

/-- How the path from a root to a labelled column multiplies rows. -/
def Catalog.labelKey? (catalog : Catalog) (root : EntityType) (label : String) : Option FanOutKey :=
  (catalog.column? label).bind fun column => catalog.fanOutKey? root column.entity

lemma Catalog.labelKey?_eq {catalog : Catalog} {label : String} {column : Catalog.Column}
    (h : catalog.column? label = some column) (root : EntityType) :
    catalog.labelKey? root label = catalog.fanOutKey? root column.entity := by
  rw [labelKey?, h, Option.bind_some]

namespace Query.Model

/-- The query with one aggregation more. -/
def add (m : Model) (a : Aggregation) : Model := { m with aggregations := m.aggregations ++ [a] }

end Query.Model

namespace Plan

variable {catalog : Catalog} {m : Model} {a : Aggregation} {c c' : Checked}

lemma Checked.Of.add (h : Checked.Of catalog m c) (h' : Checked.Of catalog (m.add a) c') :
    ∃ f, checkAggregation catalog m.involved a = .ok f ∧
      c'.aggregations = c.aggregations ++ [f] ∧ c'.strategy = c.strategy ∧
      c'.joinStyle = c.joinStyle ∧ c'.root = c.root ∧ c'.projections = c.projections ∧
      c'.filters = c.filters := by
  obtain ⟨found, f, hfound, hf, haggregations⟩ := mapM_append_singleton_eq_ok.1 h'.aggregations
  obtain rfl := Except.ok.inj (hfound.symm.trans h.aggregations)
  obtain ⟨filters, hfilters, hactive⟩ := h.filters
  obtain ⟨filters', hfilters', hactive'⟩ := h'.filters
  obtain rfl := Except.ok.inj (hfilters.symm.trans hfilters')
  exact ⟨f, hf, haggregations, h'.strategy.trans h.strategy.symm, h'.joinStyle.trans h.joinStyle.symm,
    h'.root.trans h.root.symm, Except.ok.inj (h'.projections.symm.trans h.projections),
    hactive'.trans hactive.symm⟩

/-- The root is chosen without aggregations if it is named or something is projected. -/
lemma chooseRoot_congr (hroot : c'.root = c.root) (hprojections : c'.projections = c.projections)
    (h : c.root.isSome ∨ c.projections ≠ []) : chooseRoot catalog c' = chooseRoot catalog c := by
  unfold chooseRoot
  rw [hroot, hprojections]
  cases hr : c.root with
  | some root => rfl
  | none =>
    cases hp : c.projections with
    | nil => simp [hr, hp] at h
    | cons x xs => rfl

lemma ne_nil_of_projections (h : Checked.Of catalog m c) (hp : m.projections ≠ []) :
    c.projections ≠ [] := by
  intro hnil
  have hall := mapM_eq_ok.1 h.projections
  rw [hnil, List.forall₂_nil_right_iff] at hall
  exact hp hall

/-- What is known of a layout and the one with an aggregation more. -/
structure Layout.Grows (catalog : Catalog) (m : Model) (a : Aggregation) (l l' : Layout)
    (placed : List (Placed Aggregation)) (new : Placed Aggregation) : Prop where
  root : l'.root = l.root
  projections : l'.projections = l.projections
  filters : l'.filters = l.filters
  parts : l.parts = partsOf placed
  parts' : l'.parts = partsOf (placed ++ [new])
  placed : List.Forall₂ (fun b x => catalog.labelKey? l.root b.label = some x.key) m.aggregations placed
  new : catalog.labelKey? l.root a.label = some new.key

lemma labelKey?_of_place {root : EntityType} {b : Aggregation} {f : Found Aggregation}
    {x : Placed Aggregation} (hf : checkAggregation catalog m.involved b = .ok f)
    (hx : place catalog root .aggregation Aggregation.label f = .ok x) :
    catalog.labelKey? root b.label = some x.key := by
  obtain ⟨-, hcolumn⟩ := column?_of_checkAggregation hf
  obtain ⟨-, hplaced, hpath⟩ := path?_of_place hx
  rw [Catalog.labelKey?_eq hcolumn, ← hplaced]
  exact fanOutKey?_of_path? hpath

lemma forall₂_trans {α β γ : Type} {R : α → β → Prop} {S : β → γ → Prop} {T : α → γ → Prop}
    {xs : List α} {ys : List β} {zs : List γ} (h : ∀ x y z, R x y → S y z → T x z)
    (hxy : List.Forall₂ R xs ys) (hyz : List.Forall₂ S ys zs) : List.Forall₂ T xs zs := by
  induction hxy generalizing zs with
  | nil =>
    cases hyz
    exact .nil
  | cons hr _ ih =>
    cases hyz with
    | cons hs hrest => exact .cons (h _ _ _ hr hs) (ih hrest)

/-- The layouts of a query and of the one with an aggregation more. -/
theorem Layout.Of.grows {l l' : Layout} (hm : Checked.Of catalog m c)
    (hm' : Checked.Of catalog (m.add a) c') (h : Layout.Of catalog c l)
    (h' : Layout.Of catalog c' l') (hroot : m.root.isSome ∨ m.projections ≠ []) :
    ∃ placed new, Layout.Grows catalog m a l l' placed new := by
  obtain ⟨f, hf, haggregations, -, -, hcroot, hprojections, hfilters⟩ := hm.add hm'
  have hchoice : c.root.isSome ∨ c.projections ≠ [] :=
    hroot.imp (fun hr => hm.root ▸ hr) (ne_nil_of_projections hm)
  have hchosen := h'.root
  rw [chooseRoot_congr hcroot hprojections hchoice, h.root, Except.ok.injEq, Prod.mk.injEq] at hchosen
  obtain ⟨hlroot, hlprojections⟩ := hchosen
  obtain ⟨placed, hplaced, hparts, -⟩ := partition_eq_ok.1 h.parts
  obtain ⟨placed', hplaced', hparts', -⟩ := partition_eq_ok.1 h'.parts
  rw [haggregations, ← hlroot] at hplaced'
  obtain ⟨ys, new, hys, hnew, rfl⟩ := mapM_append_singleton_eq_ok.1 hplaced'
  obtain rfl := Except.ok.inj (hys.symm.trans hplaced)
  have hlfilters := h'.filters
  unfold placeFilters at hlfilters
  rw [hfilters, ← hlroot] at hlfilters
  refine ⟨ys, new, hlroot.symm, hlprojections.symm,
    Except.ok.inj (hlfilters.symm.trans h.filters), hparts, hparts', ?_, labelKey?_of_place hf hnew⟩
  have hplace := mapM_eq_ok.1 hplaced
  exact forall₂_trans (S := fun f x => place catalog l.root .aggregation Aggregation.label f = .ok x)
    (fun b f x hb hx => labelKey?_of_place hb hx) (mapM_eq_ok.1 hm.aggregations) hplace

namespace Layout.Grows

variable {l l' : Layout} {placed : List (Placed Aggregation)} {new : Placed Aggregation}
  (h : l.Grows catalog m a l' placed new)
include h

lemma near_eq : l.near = placesOf placed ⟨[]⟩ := by
  rw [near, h.parts, near_partsOf]

lemma near_append : ∃ more, l'.near = l.near ++ more := by
  have hnear' : l'.near = placesOf (placed ++ [new]) ⟨[]⟩ := by
    rw [near, h.parts', near_partsOf]
  rw [hnear', h.near_eq, placesOf_append_singleton]
  split_ifs
  · exact ⟨_, rfl⟩
  · exact ⟨[], (List.append_nil _).symm⟩

lemma direct : l'.direct = l.direct := by
  unfold Layout.direct
  rw [h.filters]

lemma fanned : l'.fanned = l.fanned := by
  unfold Layout.fanned
  rw [h.filters]

lemma neededSteps : l'.neededSteps = l.neededSteps := by
  unfold Layout.neededSteps
  rw [h.projections, h.direct]

/-- The main rows take further steps at most, and need none of them. -/
theorem mainSteps : ∃ later, l'.mainSteps = l.mainSteps ++ later ∧
    ∀ s ∈ later, s ∉ l.neededSteps := by
  obtain ⟨more, hmore⟩ := h.near_append
  have hsteps : l'.mainSteps = extendAll l.mainSteps (more.map (·.2.path)) := by
    unfold Layout.mainSteps
    rw [h.projections, h.direct, hmore, List.map_append, ← List.append_assoc, extendAll_append]
  obtain ⟨later, hlater, hnew⟩ := extendAll_eq_append l.mainSteps (more.map (·.2.path))
  refine ⟨later, hsteps.trans hlater, fun s hs hneeded => (hnew s hs).1 ?_⟩
  obtain ⟨path, hpath, hsp⟩ := List.mem_flatten.1 hneeded
  exact mem_extendAll.2 (.inr ⟨path, List.mem_append_left _ hpath, hsp⟩)

/-- An aggregation that fans out stays in a part of its own key, which grows if the new one has the
same key. -/
lemma exists_part {i : Nat} {b : Placed Aggregation} (hb : placed[i]? = some b)
    (hfar : ¬ b.key.isRoot) :
    ∃ part part', (b.key, part) ∈ l.far ∧ (b.key, part') ∈ l'.far ∧ (i, b) ∈ part ∧
      part' = if new.key = b.key then part ++ [(placed.length, new)] else part := by
  have hmem := List.mem_of_getElem? hb
  refine ⟨placesOf placed b.key, placesOf (placed ++ [new]) b.key, ?_, ?_, mem_placesOf.2 ⟨rfl, hb⟩,
    placesOf_append_singleton placed new b.key⟩
  · refine List.mem_filter.2 ⟨?_, by simpa using hfar⟩
    rw [h.parts]
    exact mem_entries_partsOf.2 ⟨⟨b, hmem, rfl⟩, rfl⟩
  · refine List.mem_filter.2 ⟨?_, by simpa using hfar⟩
    rw [h.parts']
    exact mem_entries_partsOf.2 ⟨⟨b, List.mem_append_left _ hmem, rfl⟩, rfl⟩

end Layout.Grows

/-- A part takes further steps at most for one aggregation more, and they do not fan out. -/
theorem partSteps_append {l : Layout} (hc : catalog.WellFormed) (h : l.Sound catalog)
    {key : FanOutKey} {part : Partition} {x : Nat × Placed Aggregation} (hne : part ≠ [])
    (he : (key, part ++ [x]) ∈ l.parts.entries) :
    ∃ later, Layout.partSteps (part ++ [x]) = Layout.partSteps part ++ later ∧
      (∀ s ∈ later, s.fansOut = false) ∧ ∀ s ∈ later, s ∉ Layout.partSteps part := by
  obtain ⟨b, others, rfl⟩ := List.exists_cons_of_ne_nil hne
  have hpaths : ((b :: others) ++ [x]).map (·.2.path) =
      b.2.path :: (others ++ [x]).map (·.2.path) := by simp
  obtain ⟨rest, hrest, hdirect⟩ := extendAll_of_key hc (fun path hp => (h.part_path he hp).1)
    (fun path hp => (h.part_path he hp).2) hpaths
  obtain ⟨later, hlater, hnew⟩ := extendAll_eq_append (Layout.partSteps (b :: others)) [x.2.path]
  have hsteps : Layout.partSteps ((b :: others) ++ [x]) =
      extendAll (Layout.partSteps (b :: others)) [x.2.path] := by
    simp only [Layout.partSteps]
    rw [List.map_append, Layout.extendAll_append]
    rfl
  refine ⟨later, hsteps.trans hlater, fun s hs => ?_, fun s hs => (hnew s hs).1⟩
  -- the steps that fan out are those of the first path, which is not new
  have hmem : s ∈ b.2.path ++ rest := by
    rw [← hrest, ← Layout.partSteps, hsteps, hlater]
    exact List.mem_append_right _ hs
  rcases List.mem_append.1 hmem with hfirst | hs
  · refine absurd ?_ (hnew s hs).1
    exact mem_extendAll.2 (.inr ⟨b.2.path, by simp, hfirst⟩)
  · exact hdirect s hs

lemma fanned_eq_nil {l : Layout} (hm : Checked.Of catalog m c) (h : Layout.Of catalog c l)
    (hf : ∀ f ∈ m.filters, f.isActive → catalog.labelKey? l.root f.label = some ⟨[]⟩) :
    l.fanned = [] := by
  have hnone : l.filters.filter (fun f => ¬ f.key.isRoot) = [] := by
    rw [List.filter_eq_nil_iff]
    intro x hx
    obtain ⟨g, hg, hx⟩ := exists_of_mem_mapM h.filters hx
    obtain ⟨filters, hfilters, hactive⟩ := hm.filters
    rw [List.mem_mergeSort, hactive] at hg
    obtain ⟨hg, huse⟩ := List.mem_filter.1 hg
    obtain ⟨f, hfm, hcheck⟩ := exists_of_mem_mapM hfilters hg
    obtain ⟨rfl, hcolumn⟩ := column?_of_checkFilter hcheck
    obtain ⟨-, hplaced, hpath⟩ := path?_of_place hx
    have hkey := hf g.use hfm huse
    rw [Catalog.labelKey?_eq hcolumn, ← hplaced] at hkey
    have hroot : x.key = ⟨[]⟩ := Option.some.inj ((fanOutKey?_of_path? hpath).symm.trans hkey)
    simp [hroot, FanOutKey.isRoot]
  rw [Layout.fanned, hnone]
  rfl

end Plan

end Tabulation
