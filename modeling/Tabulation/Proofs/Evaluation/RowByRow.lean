import Tabulation.Proofs.Evaluation.Groups

/-! Evaluating row by row. Joined rows are added to their groups one at a time, and a group takes up the
sub-expressions of a root row with the first joined row of it, as it keeps in mind whose it has taken up. This comes
to the same as adding up shares. -/
namespace Tabulation.Evaluation
open Json (Value)
open Plan (Aggregate)
open Storage (Fault)
open Outcome

/-- A group to which joined rows are added, under the text by which it is found again. `merged` are the places of
the root rows whose sub-expressions it has taken up. -/
structure OpenGroup where
  text : String
  key : List Value
  totals : Totals
  merged : List Nat

/-- The values of the sub-expressions of a root row, which stands at a place of its table. -/
structure Computed where
  place : Nat
  partials : List (List Accumulator)

namespace OpenGroup

def new (p : Plan) (key : List Value) : OpenGroup := ⟨Comparison.groupKey (.array key), key, .zero p, []⟩

/-- Replaces the local aggregates, and takes up what was computed for a root row unless that has been done. -/
def take (computed : Computed) (locals : List Accumulator) (g : OpenGroup) : OpenGroup :=
  if computed.place ∈ g.merged then { g with totals := { g.totals with locals := locals } }
  else
    { g with
      totals := ⟨locals, g.totals.subs.zipWith (List.zipWith Accumulator.merge) computed.partials⟩
      merged := computed.place :: g.merged }

/-- Changes the group of a key, which is opened if there is none. -/
def change (p : Plan) (key : List Value) (f : OpenGroup → Except Fault OpenGroup) :
    List OpenGroup → Except Fault (List OpenGroup)
  | [] => do return [← f (.new p key)]
  | g :: gs =>
    if g.text = Comparison.groupKey (.array key) then do return (← f g) :: gs
    else do return g :: (← change p key f gs)

end OpenGroup

namespace Ready

/-- Adds a joined row to its group. -/
def addRow (r : Ready) (computed : Computed) (groups : List OpenGroup) (b : Binding) :
    Except Fault (List OpenGroup) := do
  let key ← r.plan.groupKeys.mapM fun k => groupValue k.bucket (b.value? k.column)
  OpenGroup.change r.plan key (fun g => do
    return g.take computed (← feed r.plan.localAggregates g.totals.locals b)) groups

/-- Adds the joined rows of a root row to their groups. -/
def addRoot (r : Ready) (groups : List OpenGroup) (root : Row × Nat) : Except Fault (List OpenGroup) := do
  if ¬ r.admits root.1 then return groups
  match ← r.allPartials root.1 r.subExpressions with
  | none => return groups
  | some found => ((r.reach r.plan.joins root.1).filter (allHold r.conditions)).foldlM (r.addRow ⟨root.2, found⟩) groups

end Ready

/-- Evaluates a plan in one pass over the root rows. -/
def evaluateRowByRow (tables : Tables) (specials : Specials) (p : Plan) : Except Fault (List Tuple) := do
  let ready ← Ready.ofPlan tables specials p
  let groups ← (tables.rows p.root).zipIdx.foldlM ready.addRoot []
  let groups := if groups.isEmpty ∧ p.isGlobal then [.new p []] else groups
  return SortKey.sort p.sortKeys (groups.map fun g => tuple p g.key g.totals)

/-! Without faults -/

/-- A joined row with what was computed for its root row. -/
structure Arrival where
  computed : Computed
  row : Contribution

def Arrival.text (a : Arrival) : String := a.row.keyText

namespace OpenGroup

def receive (g : OpenGroup) (a : Arrival) : OpenGroup :=
  g.take a.computed (g.totals.locals.zipWith Accumulator.addRead a.row.inputs)

def enter (p : Plan) (a : Arrival) : List OpenGroup → List OpenGroup
  | [] => [(new p a.row.key).receive a]
  | g :: gs => if g.text = a.text then g.receive a :: gs else g :: enter p a gs

/-- The local accumulators are those of the plan's aggregates. -/
def Fits (p : Plan) (g : OpenGroup) : Prop :=
  g.totals.locals.map Accumulator.function = p.localAggregates.map (·.function)

end OpenGroup

open OpenGroup

variable {p : Plan} {r : Ready} {groups : List OpenGroup} {g : OpenGroup} {a : Arrival} {computed : Computed}

lemma feed_eq {aggregates : List Aggregate} {accumulators : List Accumulator} (b : Binding)
    (h : accumulators.map Accumulator.function = aggregates.map (·.function)) :
    Ready.feed aggregates accumulators b =
      (aggregates.mapM fun a => Input.read a.function (b.value? a.column)).map
        fun inputs => accumulators.zipWith Accumulator.addRead inputs := by
  induction aggregates generalizing accumulators with
  | nil =>
    rw [List.map_nil, List.map_eq_nil_iff] at h
    subst h
    rfl
  | cons a aggregates ih =>
    obtain ⟨acc, accs, rfl⟩ := List.exists_cons_of_ne_nil fun hnil : accumulators = [] => by simp [hnil] at h
    rw [List.map_cons, List.map_cons, List.cons.injEq] at h
    have hrest : Ready.feed aggregates accs b = _ := ih h.2
    rw [Ready.feed, List.zip_cons_cons, List.mapM_cons, List.mapM_cons, ← Ready.feed, hrest, Accumulator.push, h.1]
    cases Input.read a.function (b.value? a.column) with
    | error e => rfl
    | ok input =>
      cases aggregates.mapM fun a => Input.read a.function (b.value? a.column) with
      | error e => rfl
      | ok inputs => rfl

lemma fits_new (p : Plan) (key : List Value) : (new p key).Fits p := by
  simp [Fits, new, Totals.zero, Function.comp_def]

lemma OpenGroup.Fits.receive (h : g.Fits p) (ha : a.row.inputs.length = p.localAggregates.length) :
    (g.receive a).Fits p := by
  have hfunctions : ∀ {accs : List Accumulator} {inputs : List (Option Input)}, inputs.length = accs.length →
      (accs.zipWith Accumulator.addRead inputs).map Accumulator.function = accs.map Accumulator.function := by
    intro accs inputs hlength
    induction accs generalizing inputs with
    | nil => rfl
    | cons acc accs ih =>
      obtain ⟨input, inputs, rfl⟩ := List.exists_cons_of_length_eq_add_one hlength
      simp only [List.zipWith_cons_cons, List.map_cons, function_addRead, List.cons.injEq, true_and]
      exact ih (by simpa using hlength)
  have hlength := congrArg List.length h
  rw [List.length_map, List.length_map] at hlength
  have hlocals := (hfunctions (ha.trans hlength.symm)).trans h
  unfold OpenGroup.Fits OpenGroup.receive OpenGroup.take
  split_ifs
  · exact hlocals
  · exact hlocals

lemma fits_enter (h : ∀ g ∈ groups, g.Fits p) (ha : a.row.inputs.length = p.localAggregates.length) :
    ∀ g ∈ enter p a groups, g.Fits p := by
  induction groups with
  | nil => exact List.forall_mem_singleton.2 ((fits_new _ _).receive ha)
  | cons g groups ih =>
    obtain ⟨hg, hgroups⟩ := List.forall_mem_cons.1 h
    unfold enter
    split_ifs
    · exact List.forall_mem_cons.2 ⟨hg.receive ha, hgroups⟩
    · exact List.forall_mem_cons.2 ⟨hg, ih hgroups⟩

/-- A change that reads something first and can fail only then. -/
lemma change_eq {key : List Value} {read : Except Fault (List (Option Input))}
    {f : OpenGroup → Except Fault OpenGroup}
    (hf : ∀ g, g.Fits p → f g = read.map fun inputs => g.receive ⟨computed, ⟨key, inputs⟩⟩)
    (h : ∀ g ∈ groups, g.Fits p) :
    change p key f groups = read.map fun inputs => enter p ⟨computed, ⟨key, inputs⟩⟩ groups := by
  induction groups with
  | nil =>
    rw [change, hf _ (fits_new p key)]
    cases read <;> rfl
  | cons g groups ih =>
    obtain ⟨hg, hgroups⟩ := List.forall_mem_cons.1 h
    unfold change
    split_ifs with htext
    · rw [hf g hg]
      cases read with
      | error e => rfl
      | ok inputs => exact congrArg Except.ok (if_pos htext).symm
    · rw [ih hgroups]
      cases read with
      | error e => rfl
      | ok inputs => exact congrArg Except.ok (if_neg htext).symm

lemma addRow_eq (h : ∀ g ∈ groups, g.Fits r.plan) (b : Binding) :
    r.addRow computed groups b = (r.contribution b).map fun c => enter r.plan ⟨computed, c⟩ groups := by
  unfold Ready.addRow Ready.contribution
  cases r.plan.groupKeys.mapM fun k => groupValue k.bucket (b.value? k.column) with
  | error e => rfl
  | ok key =>
    have hfeed : ∀ g : OpenGroup, g.Fits r.plan →
        (do return g.take computed (← Ready.feed r.plan.localAggregates g.totals.locals b) : Except Fault OpenGroup) =
          (r.plan.localAggregates.mapM fun a => Input.read a.function (b.value? a.column)).map
            fun inputs => g.receive ⟨computed, ⟨key, inputs⟩⟩ := by
      intro g hg
      rw [feed_eq b hg]
      cases r.plan.localAggregates.mapM fun a => Input.read a.function (b.value? a.column) <;> rfl
    refine (change_eq hfeed h).trans ?_
    cases r.plan.localAggregates.mapM fun a => Input.read a.function (b.value? a.column) <;> rfl

/-- What a root row offers: its joined rows, and what was computed for it. -/
structure Offer where
  rows : List Contribution
  partials : List (List Accumulator)

namespace Offer

def shares (o : Offer) : List Share := (groupBy Contribution.keyText o.rows).map fun rows => ⟨rows, o.partials⟩

/-- The joined rows of the root row at a place. -/
def arrivals (o : Offer × Nat) : List Arrival := o.1.rows.map fun c => ⟨⟨o.2, o.1.partials⟩, c⟩

end Offer

open Offer

def Ready.offer (r : Ready) (root : Row) : Except Fault Offer := do
  if ¬ r.admits root then return ⟨[], []⟩
  match ← r.allPartials root r.subExpressions with
  | none => return ⟨[], []⟩
  | some found => return ⟨← ((r.reach r.plan.joins root).filter (allHold r.conditions)).mapM r.contribution, found⟩

lemma shares_eq (r : Ready) (root : Row) : r.shares root = (r.offer root).map Offer.shares := by
  unfold Ready.shares Ready.offer
  by_cases hadmits : r.admits root
  · rw [if_neg (by simpa using hadmits), if_neg (by simpa using hadmits)]
    cases r.allPartials root r.subExpressions with
    | error e => rfl
    | ok found =>
      cases found with
      | none => rfl
      | some found =>
        change (List.mapM r.contribution _ >>= _) = Except.map _ (List.mapM r.contribution _ >>= _)
        cases ((r.reach r.plan.joins root).filter (allHold r.conditions)).mapM r.contribution with
        | error e => rfl
        | ok rows => rfl
  · rw [if_pos (by simpa using hadmits), if_pos (by simpa using hadmits)]
    rfl

lemma length_inputs {b : Binding} {c : Contribution} (h : r.contribution b = .ok c) :
    c.inputs.length = r.plan.localAggregates.length := by
  rw [(contribution_eq_ok.1 h).2, contributionOf, List.length_map]

lemma length_inputs_offer {root : Row} {o : Offer} (h : r.offer root = .ok o) :
    ∀ c ∈ o.rows, c.inputs.length = r.plan.localAggregates.length := by
  unfold Ready.offer at h
  by_cases hadmits : r.admits root
  · rw [if_neg (by simpa using hadmits)] at h
    obtain ⟨found, -, h⟩ := bind_eq_ok.1 h
    cases found with
    | none =>
      cases h
      exact List.forall_mem_nil _
    | some found =>
      obtain ⟨rows, hrows, h⟩ := bind_eq_ok.1 h
      cases h
      intro c hc
      obtain ⟨b, -, hb⟩ := exists_of_mem_mapM hrows hc
      exact length_inputs hb
  · rw [if_pos (by simpa using hadmits)] at h
    cases h
    exact List.forall_mem_nil _

lemma fits_foldl_enter {arrivals : List Arrival} (h : ∀ g ∈ groups, g.Fits p)
    (ha : ∀ a ∈ arrivals, a.row.inputs.length = p.localAggregates.length) :
    ∀ g ∈ arrivals.foldl (fun groups a => enter p a groups) groups, g.Fits p := by
  induction arrivals generalizing groups with
  | nil => exact h
  | cons a arrivals ih =>
    obtain ⟨ha, harrivals⟩ := List.forall_mem_cons.1 ha
    exact ih (fits_enter h ha) harrivals

lemma addRoot_eq (h : ∀ g ∈ groups, g.Fits r.plan) (root : Row × Nat) :
    r.addRoot groups root =
      ((r.offer root.1).map (·, root.2)).map
        fun o => (arrivals o).foldl (fun groups a => enter r.plan a groups) groups := by
  unfold Ready.addRoot Ready.offer
  by_cases hadmits : r.admits root.1
  · rw [if_neg (by simpa using hadmits), if_neg (by simpa using hadmits)]
    cases r.allPartials root.1 r.subExpressions with
    | error e => rfl
    | ok found =>
      cases found with
      | none => rfl
      | some found =>
        have hrows := foldlM_eq_mapM r.contribution (fun groups c => enter r.plan ⟨⟨root.2, found⟩, c⟩ groups)
          (fun groups => ∀ g ∈ groups, g.Fits r.plan) (fun _ b hgroups => addRow_eq hgroups b)
          (fun _ _ _ hgroups hc => fits_enter hgroups (length_inputs hc)) h
          ((r.reach r.plan.joins root.1).filter (allHold r.conditions))
        refine hrows.trans ?_
        change _ = Except.map _ (Except.map _ (List.mapM r.contribution _ >>= _))
        cases ((r.reach r.plan.joins root.1).filter (allHold r.conditions)).mapM r.contribution with
        | error e => rfl
        | ok rows =>
          refine congrArg Except.ok ?_
          simp only [arrivals, List.foldl_map]
  · rw [if_pos (by simpa using hadmits), if_pos (by simpa using hadmits)]
    rfl

lemma foldlM_addRoot (r : Ready) (roots : List Row) :
    roots.zipIdx.foldlM r.addRoot [] =
      (roots.mapM r.offer).map fun offers =>
        (offers.zipIdx.flatMap arrivals).foldl (fun groups a => enter r.plan a groups) [] := by
  have hroots := foldlM_eq_mapM (fun root => (r.offer root.1).map (·, root.2))
    (fun groups o => (arrivals o).foldl (fun groups a => enter r.plan a groups) groups)
    (fun groups => ∀ g ∈ groups, g.Fits r.plan) (fun _ root hgroups => addRoot_eq hgroups root)
    (fun groups root o hgroups ho => by
      obtain ⟨offer, hoffer, rfl⟩ := map_eq_ok.1 ho
      exact fits_foldl_enter hgroups (List.forall_mem_map.2 (length_inputs_offer hoffer)))
    (List.forall_mem_nil _) roots.zipIdx
  rw [hroots, mapM_zipIdx]
  cases roots.mapM r.offer with
  | error e => rfl
  | ok offers => exact congrArg Except.ok List.foldl_flatMap.symm

/-! What a group receives -/

@[simp] lemma key_receive (g : OpenGroup) (a : Arrival) : (g.receive a).key = g.key := by
  unfold OpenGroup.receive OpenGroup.take
  split_ifs <;> rfl

@[simp] lemma text_receive (g : OpenGroup) (a : Arrival) : (g.receive a).text = g.text := by
  unfold OpenGroup.receive OpenGroup.take
  split_ifs <;> rfl

lemma key_foldl_receive (g : OpenGroup) (as : List Arrival) : (as.foldl OpenGroup.receive g).key = g.key := by
  induction as generalizing g with
  | nil => rfl
  | cons a as ih => rw [List.foldl_cons, ih, key_receive]

lemma text_foldl_receive (g : OpenGroup) (as : List Arrival) : (as.foldl OpenGroup.receive g).text = g.text := by
  induction as generalizing g with
  | nil => rfl
  | cons a as ih => rw [List.foldl_cons, ih, text_receive]

/-- The group of an arrival's text, after all arrivals under it. -/
def received (p : Plan) (as : List Arrival) (a : Arrival) : OpenGroup :=
  (as.filter fun b => b.text = a.text).foldl OpenGroup.receive (new p a.row.key)

lemma text_received (p : Plan) (as : List Arrival) (a : Arrival) : (received p as a).text = a.text :=
  text_foldl_receive _ _

lemma received_append_singleton (p : Plan) (as : List Arrival) (a b : Arrival) :
    received p (as ++ [b]) a = if a.text = b.text then (received p as a).receive b else received p as a := by
  unfold received
  rw [List.filter_append, List.foldl_append]
  by_cases h : b.text = a.text
  · simp [h]
  · simp [h, Ne.symm h]

/-- At most one of groups with texts of their own takes an arrival up. -/
lemma enter_eq (a : Arrival) (h : groups.Pairwise fun g g' => g.text ≠ g'.text) :
    enter p a groups =
      if ∃ g ∈ groups, g.text = a.text then groups.map fun g => if g.text = a.text then g.receive a else g
      else groups ++ [(new p a.row.key).receive a] := by
  induction groups with
  | nil => simp [enter]
  | cons g groups ih =>
    obtain ⟨hg, hgroups⟩ := List.pairwise_cons.1 h
    unfold enter
    by_cases htext : g.text = a.text
    · have hothers : groups.map (fun g => if g.text = a.text then g.receive a else g) = groups := by
        conv_rhs => rw [← List.map_id groups]
        apply List.map_congr_left
        intro g' hg'
        exact if_neg fun h' => hg g' hg' (htext.trans h'.symm)
      simp [htext, hothers]
    · rw [if_neg htext, ih hgroups]
      by_cases hex : ∃ g ∈ groups, g.text = a.text
      · simp [htext, hex]
      · simp [htext, hex]

/-- Of the groups of arrivals one takes another arrival up, if one has its text. -/
lemma enter_received (p : Plan) (as : List Arrival) (a : Arrival) :
    enter p a ((firsts Arrival.text as).map (received p as)) =
      if ∃ b ∈ as, b.text = a.text then (firsts Arrival.text as).map (received p (as ++ [a]))
      else (firsts Arrival.text as).map (received p as) ++ [(new p a.row.key).receive a] := by
  have hpairwise : ((firsts Arrival.text as).map (received p as)).Pairwise fun g g' => g.text ≠ g'.text := by
    rw [List.pairwise_map]
    simpa only [text_received] using firsts_pairwise Arrival.text as
  have hex : (∃ g ∈ (firsts Arrival.text as).map (received p as), g.text = a.text) ↔
      ∃ b ∈ as, b.text = a.text := by
    constructor
    · intro ⟨g, hg, htext⟩
      obtain ⟨b, hb, rfl⟩ := List.mem_map.1 hg
      exact ⟨b, firsts_subset _ _ hb, (text_received p as b).symm.trans htext⟩
    · intro ⟨b, hb, htext⟩
      obtain ⟨c, hc, hcb⟩ := exists_mem_firsts Arrival.text hb
      exact ⟨_, List.mem_map_of_mem hc, (text_received p as c).trans (hcb.trans htext)⟩
  have hmap : ((firsts Arrival.text as).map (received p as)).map
        (fun g => if g.text = a.text then g.receive a else g) =
      (firsts Arrival.text as).map (received p (as ++ [a])) := by
    rw [List.map_map]
    apply List.map_congr_left
    intro b _
    rw [received_append_singleton, Function.comp_apply, text_received]
  rw [enter_eq a hpairwise, hmap]
  simp only [hex]

/-- Every text has a group of its own, which stands where the first arrival under it does. -/
lemma foldl_enter (p : Plan) (as : List Arrival) :
    as.foldl (fun groups a => enter p a groups) [] = (firsts Arrival.text as).map (received p as) := by
  induction as using List.reverseRecOn with
  | nil => rfl
  | append_singleton as a ih =>
    rw [List.foldl_append, List.foldl_cons, List.foldl_nil, ih, enter_received, firsts_append_singleton]
    by_cases hnew : ∀ b ∈ as, b.text ≠ a.text
    · have hnone : as.filter (fun b => b.text = a.text) = [] := by simpa using hnew
      have hlast : received p (as ++ [a]) a = (new p a.row.key).receive a := by simp [received, hnone]
      have hothers : (firsts Arrival.text as).map (received p (as ++ [a])) =
          (firsts Arrival.text as).map (received p as) := by
        apply List.map_congr_left
        intro b hb
        rw [received_append_singleton, if_neg (hnew b (firsts_subset _ _ hb))]
      rw [if_neg (by simpa using hnew), if_pos hnew, List.map_append, List.map_singleton, hlast, hothers]
    · rw [if_pos (by simpa using hnew), if_neg hnew]

/-! The shares of offers -/

/-- A group that has taken up the sub-expressions of a root row adds its joined rows only. -/
lemma foldl_receive_of_mem {computed : Computed} (h : computed.place ∈ g.merged) (cs : List Contribution) :
    (cs.map fun c => (⟨computed, c⟩ : Arrival)).foldl OpenGroup.receive g =
      { g with totals :=
        ⟨cs.foldl (fun locals c => locals.zipWith Accumulator.addRead c.inputs) g.totals.locals, g.totals.subs⟩ } := by
  induction cs generalizing g with
  | nil => rfl
  | cons c cs ih =>
    have hreceive : g.receive ⟨computed, c⟩ =
        { g with totals := ⟨g.totals.locals.zipWith Accumulator.addRead c.inputs, g.totals.subs⟩ } := if_pos h
    rw [List.map_cons, List.foldl_cons, hreceive]
    exact ih h

/-- What a root row offers reaches a group as its share: its joined rows and, with the first of them, its
sub-expressions. -/
lemma foldl_receive_arrivals {o : Offer} {place : Nat} (h : place ∉ g.merged) (text : String) :
    (((arrivals (o, place)).filter fun a => a.text = text).foldl OpenGroup.receive g).totals =
        (o.shares.filter fun s => s.keyText = text).foldl Totals.add g.totals ∧
      ∀ i ∈ (((arrivals (o, place)).filter fun a => a.text = text).foldl OpenGroup.receive g).merged,
        i ∈ g.merged ∨ i = place := by
  have hfilter : (arrivals (o, place)).filter (fun a => a.text = text) =
      (o.rows.filter fun c => c.keyText = text).map fun c => ⟨⟨place, o.partials⟩, c⟩ := by
    rw [arrivals, List.filter_map]
    rfl
  rw [hfilter, Offer.shares, filter_shares]
  cases hrows : o.rows.filter fun c => c.keyText = text with
  | nil => exact ⟨rfl, fun i hi => .inl hi⟩
  | cons c cs =>
    have hreceive : g.receive ⟨⟨place, o.partials⟩, c⟩ =
        { g with
          totals := ⟨g.totals.locals.zipWith Accumulator.addRead c.inputs,
            g.totals.subs.zipWith (List.zipWith Accumulator.merge) o.partials⟩
          merged := place :: g.merged } := if_neg h
    rw [List.map_cons, List.foldl_cons, hreceive, foldl_receive_of_mem List.mem_cons_self]
    refine ⟨?_, fun i hi => (List.mem_cons.1 hi).symm⟩
    simp [Totals.add, toList_groupOf_head hrows]

lemma zipIdx_append_singleton {α : Type} (xs : List α) (x : α) :
    (xs ++ [x]).zipIdx = xs.zipIdx ++ [(x, xs.length)] := by
  simp [List.zipIdx_append]

/-- What reaches the group of a text are the shares under it. -/
lemma foldl_receive_flatMap (p : Plan) (offers : List Offer) (key : List Value) (text : String) :
    (((offers.zipIdx.flatMap arrivals).filter fun a => a.text = text).foldl OpenGroup.receive (new p key)).totals =
        ((offers.flatMap Offer.shares).filter fun s => s.keyText = text).foldl Totals.add (.zero p) ∧
      ∀ i ∈ (((offers.zipIdx.flatMap arrivals).filter fun a => a.text = text).foldl
        OpenGroup.receive (new p key)).merged, i < offers.length := by
  induction offers using List.reverseRecOn with
  | nil => exact ⟨rfl, List.forall_mem_nil _⟩
  | append_singleton offers o ih =>
    obtain ⟨htotals, hmerged⟩ := ih
    rw [zipIdx_append_singleton, List.flatMap_append, List.flatMap_append, List.filter_append, List.filter_append,
      List.foldl_append, List.foldl_append, List.flatMap_singleton, List.flatMap_singleton, List.length_append,
      List.length_singleton, ← htotals]
    generalize ((offers.zipIdx.flatMap arrivals).filter fun a => a.text = text).foldl
      OpenGroup.receive (new p key) = g at hmerged ⊢
    obtain ⟨hnext, hplaces⟩ := foldl_receive_arrivals (o := o)
      (fun hmem => Nat.lt_irrefl _ (hmerged offers.length hmem)) text
    refine ⟨hnext, fun i hi => ?_⟩
    rcases hplaces i hi with hi | rfl
    · have := hmerged i hi
      omega
    · omega

/-- Shares and arrivals begin with the same joined rows under their texts. -/
lemma map_firsts_shares (offers : List Offer) :
    (firsts Share.keyText (offers.flatMap Offer.shares)).map (·.rows.first) =
      (firsts Arrival.text (offers.zipIdx.flatMap arrivals)).map (·.row) := by
  have hrows : (offers.zipIdx.flatMap arrivals).map (·.row) = offers.flatMap Offer.rows := by
    rw [List.map_flatMap]
    simp only [arrivals, List.map_map, Function.comp_def, List.map_id']
    rw [← List.flatMap_map, List.zipIdx_map_fst]
  have hshares : ∀ o : Offer, o.shares.map (·.rows.first) = firsts Contribution.keyText o.rows :=
    fun o => map_first_shares o.rows o.partials
  rw [map_firsts_flatMap _ hshares, ← hrows]
  exact (firsts_map Contribution.keyText (fun a : Arrival => a.row) _).symm

lemma tuples_shares (p : Plan) (offers : List Offer) :
    tuples p (offers.flatMap Offer.shares) =
      let groups := (offers.zipIdx.flatMap arrivals).foldl (fun groups a => enter p a groups) []
      (if groups.isEmpty ∧ p.isGlobal then [new p []] else groups).map fun g => tuple p g.key g.totals := by
  have hmap : (groupBy Share.keyText (offers.flatMap Offer.shares)).map (fun g =>
        tuple p g.first.key (g.toList.foldl Totals.add (.zero p))) =
      ((offers.zipIdx.flatMap arrivals).foldl (fun groups a => enter p a groups) []).map
        fun g => tuple p g.key g.totals := by
    rw [map_groups_shares, map_firsts_shares, foldl_enter, List.map_map, List.map_map]
    apply List.map_congr_left
    intro a _
    rw [Function.comp_apply, Function.comp_apply, received, key_foldl_receive,
      (foldl_receive_flatMap p offers a.row.key a.text).1]
    rfl
  unfold tuples
  cases hgroups : groupBy Share.keyText (offers.flatMap Offer.shares) with
  | nil =>
    rw [hgroups, List.map_nil, eq_comm, List.map_eq_nil_iff] at hmap
    simp only [hmap]
    by_cases hglobal : p.isGlobal
    · simp [hglobal, new]
    · simp [hglobal]
  | cons g gs =>
    rw [hgroups] at hmap
    refine hmap.trans ?_
    have hopened : ((offers.zipIdx.flatMap arrivals).foldl (fun groups a => enter p a groups) []) ≠ [] := by
      intro hnil
      rw [hnil] at hmap
      cases hmap
    simp [hopened]

/-- Adding joined rows one at a time comes to the same as adding up shares, faults included. -/
theorem evaluateRowByRow_eq (tables : Tables) (specials : Specials) (p : Plan) :
    evaluateRowByRow tables specials p = evaluate tables specials p := by
  unfold evaluateRowByRow evaluate
  cases hready : Ready.ofPlan tables specials p with
  | error e => rfl
  | ok r =>
    have hplan : r.plan = p := (ofPlan_eq_ok (x := ⟨tables, specials, p⟩)).1 hready |>.plan
    have hshares : (tables.rows p.root).mapM r.shares =
        ((tables.rows p.root).mapM r.offer).map (·.map Offer.shares) := by
      rw [funext (shares_eq r), mapM_map]
    change ((tables.rows p.root).zipIdx.foldlM r.addRoot [] >>= _) = ((tables.rows p.root).mapM r.shares >>= _)
    rw [foldlM_addRoot, hshares]
    cases (tables.rows p.root).mapM r.offer with
    | error e => rfl
    | ok offers =>
      refine congrArg (fun ts => Except.ok (SortKey.sort p.sortKeys ts)) ?_
      subst hplan
      rw [← List.flatMap_def, tuples_shares]

end Tabulation.Evaluation
