import Tabulation.Proofs.Evaluation.Grouping
import Tabulation.Proofs.Evaluation.Runs

/-! The result of a run as a function of its rows. An evaluation that succeeds goes through the root rows
one by one and adds up what each of them shares with its groups; what comes out is told here group by
group. -/
namespace Tabulation.Evaluation
open Json (Value)
open Plan (Aggregate SubExpression)
open Outcome

/-- The values by which a joined row is grouped, where they can be read. -/
def groupValues (p : Plan) (b : Binding) : List Value :=
  p.groupKeys.map fun k => getD (groupValue k.bucket (b.value? k.column)) .null

/-- The text under which a joined row is grouped. -/
def groupText (p : Plan) (b : Binding) : String := Comparison.groupKey (.array (groupValues p b))

/-- The values by which a joined row is grouped can be read, and so can what it is aggregated for. -/
def Contributes (p : Plan) (b : Binding) : Prop :=
  (∀ k ∈ p.groupKeys, ∃ v, groupValue k.bucket (b.value? k.column) = .ok v) ∧
    ∀ a ∈ p.localAggregates, Readable a.function (b.value? a.column)

instance (p : Plan) : DecidablePred (Contributes p) := fun _ =>
  inferInstanceAs (Decidable (_ ∧ _))

def contributionOf (p : Plan) (b : Binding) : Contribution :=
  ⟨groupValues p b, p.localAggregates.map fun a => inputOf a.function (b.value? a.column)⟩

/-- The accumulators of aggregates, merged from their rows part by part. -/
def mergedTallies (aggregates : List Aggregate) (parts : List (List Binding)) : List Accumulator :=
  aggregates.map fun a =>
    (parts.map fun rows => tally a.function (valuesOf a rows)).foldl Accumulator.merge
      (.new a.function)

namespace Run

variable (x : Run) (root : Row) (roots : List Row) (text : String)

/-- All joined rows of those root rows that count. -/
def bindings : List Binding := (roots.filter x.counts).flatMap x.mainRows

/-- The root rows that count and have a joined row under the text, each one once. -/
def members : List Row :=
  (roots.filter x.counts).filter fun root =>
    (x.mainRows root).any fun b => groupText x.plan b = text

/-- The accumulators of the group under a text. -/
def totals : Totals :=
  ⟨tallies x.plan.localAggregates ((x.bindings roots).filter fun b => groupText x.plan b = text),
    x.plan.subExpressions.map fun s =>
      mergedTallies s.aggregates ((x.members roots text).map (x.subRows s))⟩

/-- The tuples of all groups. -/
def result : List Tuple :=
  match firsts (groupText x.plan) (x.bindings roots) with
  | [] => if x.plan.isGlobal then [tuple x.plan [] (.zero x.plan)] else []
  | bs => bs.map fun b => tuple x.plan (groupValues x.plan b) (x.totals roots (groupText x.plan b))

/-- The shares of a root row. -/
def rootShares : List Share :=
  if x.counts root then
    (groupBy Contribution.keyText ((x.mainRows root).map (contributionOf x.plan))).map
      (⟨·, x.plan.subExpressions.map fun s => tallies s.aggregates (x.subRows s root)⟩)
  else []

/-- The values that a sub-expression aggregates for a root row can be read. -/
def ReadsSub (s : SubExpression) : Prop :=
  ∀ a ∈ s.aggregates, ∀ v ∈ valuesOf a (x.subRows s root), Readable a.function v

/-- What has to be read for a root row can be read. -/
def Reads : Prop :=
  x.counts root →
    (∀ s ∈ x.plan.subExpressions, x.ReadsSub root s) ∧ ∀ b ∈ x.mainRows root, Contributes x.plan b

instance : DecidablePred (x.ReadsSub root) := fun s =>
  inferInstanceAs (Decidable (∀ a ∈ s.aggregates, ∀ v ∈ valuesOf a (x.subRows s root),
    Readable a.function v))

instance : Decidable (x.Reads root) :=
  inferInstanceAs (Decidable (x.counts root → _ ∧ _))

end Run

variable {x : Run} {r : Ready} {root : Row} {roots : List Row} {text : String}

lemma contribution_eq_ok {b : Binding} {c : Contribution} :
    r.contribution b = .ok c ↔ Contributes r.plan b ∧ c = contributionOf r.plan b := by
  have hkeys := mapM_eq_ok_iff_map
    (fun k _ => eq_ok_iff (x := groupValue k.bucket (b.value? k.column)) .null) r.plan.groupKeys
  have hinputs := mapM_eq_ok_iff_map
    (fun a _ => read_eq_ok (f := a.function) (v := b.value? a.column)) r.plan.localAggregates
  unfold Ready.contribution
  simp only [bind_eq_ok, hkeys, hinputs]
  constructor
  · rintro ⟨_, ⟨hk, rfl⟩, _, ⟨hi, rfl⟩, h⟩
    cases h
    exact ⟨⟨hk, hi⟩, rfl⟩
  · rintro ⟨⟨hk, hi⟩, rfl⟩
    exact ⟨_, ⟨hk, rfl⟩, _, ⟨hi, rfl⟩, rfl⟩

lemma allPartials_cons_eq_ok {s : ReadySub} {subs : List ReadySub}
    {found : Option (List (List Accumulator))} :
    r.allPartials root (s :: subs) = .ok found ↔
      (r.partials root s = .ok none ∧ found = none) ∨
        ∃ accs others, r.partials root s = .ok (some accs) ∧
          r.allPartials root subs = .ok others ∧ found = others.map (accs :: ·) := by
  rw [Ready.allPartials, bind_eq_ok]
  constructor
  · rintro ⟨_ | accs, hs, h⟩
    · cases h
      exact .inl ⟨hs, rfl⟩
    · obtain ⟨others, hothers, h⟩ := bind_eq_ok.1 h
      cases h
      exact .inr ⟨accs, others, hs, hothers, rfl⟩
  · rintro (⟨hs, rfl⟩ | ⟨accs, others, hs, hothers, rfl⟩)
    · exact ⟨none, hs, rfl⟩
    · exact ⟨some accs, hs, bind_eq_ok.2 ⟨others, hothers, rfl⟩⟩

namespace Ready.Of

variable (h : r.Of x)
include h

lemma partials_eq {s : ReadySub} (hs : s ∈ r.subExpressions) (root : Row) :
    r.partials root s =
      if (x.subRows s.sub root).isEmpty ∧ s.sub.joinKind = .inner then .ok none
      else ((x.subRows s.sub root).foldlM (feed s.sub.aggregates)
        (s.sub.aggregates.map fun a => Accumulator.new a.function)).map some := by
  rw [← h.subRows hs]
  rfl

lemma partials_of_keeps {s : ReadySub} (hs : s ∈ r.subExpressions) (hk : x.keeps root s.sub)
    {found : Option (List Accumulator)} :
    r.partials root s = .ok found ↔
      x.ReadsSub root s.sub ∧ found = some (tallies s.sub.aggregates (x.subRows s.sub root)) := by
  simp only [Run.keeps, decide_eq_true_eq] at hk
  rw [h.partials_eq hs, if_neg hk, map_eq_ok]
  simp only [foldlM_feed_eq_ok]
  constructor
  · rintro ⟨_, ⟨hreads, rfl⟩, rfl⟩
    exact ⟨hreads, rfl⟩
  · rintro ⟨hreads, rfl⟩
    exact ⟨_, ⟨hreads, rfl⟩, rfl⟩

lemma partials_of_not_keeps {s : ReadySub} (hs : s ∈ r.subExpressions)
    (hk : x.keeps root s.sub = false) : r.partials root s = .ok none := by
  simp only [Run.keeps, decide_eq_false_iff_not, not_not] at hk
  rw [h.partials_eq hs, if_pos hk]

lemma allPartials_of_keeps {subs : List ReadySub} (hsubs : subs ⊆ r.subExpressions)
    (hk : subs.all fun s => x.keeps root s.sub) {found : Option (List (List Accumulator))} :
    r.allPartials root subs = .ok found ↔
      (∀ s ∈ subs, x.ReadsSub root s.sub) ∧
        found = some (subs.map fun s => tallies s.sub.aggregates (x.subRows s.sub root)) := by
  induction subs generalizing found with
  | nil => simp [Ready.allPartials, eq_comm]
  | cons s subs ih =>
    simp only [List.all_cons, Bool.and_eq_true] at hk
    obtain ⟨hs, hsubs⟩ := List.cons_subset.1 hsubs
    rw [allPartials_cons_eq_ok]
    simp only [h.partials_of_keeps hs hk.1, ih hsubs hk.2, List.mem_cons, forall_eq_or_imp,
      List.map_cons]
    constructor
    · rintro (⟨⟨-, h⟩, -⟩ | ⟨accs, others, ⟨hread, haccs⟩, ⟨hreads, rfl⟩, rfl⟩)
      · cases h
      · cases haccs
        exact ⟨⟨hread, hreads⟩, rfl⟩
    · rintro ⟨⟨hread, hreads⟩, rfl⟩
      exact .inr ⟨_, _, ⟨hread, rfl⟩, ⟨hreads, rfl⟩, rfl⟩

lemma allPartials_of_not_keeps {subs : List ReadySub} (hsubs : subs ⊆ r.subExpressions)
    (hk : (subs.all fun s => x.keeps root s.sub) = false)
    {found : Option (List (List Accumulator))} (hf : r.allPartials root subs = .ok found) :
    found = none := by
  induction subs generalizing found with
  | nil => simp at hk
  | cons s subs ih =>
    obtain ⟨hs, hsubs⟩ := List.cons_subset.1 hsubs
    rcases allPartials_cons_eq_ok.1 hf with ⟨-, hnone⟩ | ⟨accs, others, hpartials, hothers, rfl⟩
    · exact hnone
    · cases hkeeps : x.keeps root s.sub with
      | false =>
        rw [h.partials_of_not_keeps hs hkeeps] at hpartials
        cases hpartials
      | true =>
        rw [ih hsubs (by simpa [hkeeps] using hk) hothers]
        rfl

lemma allPartials_of_reads {subs : List ReadySub} (hsubs : subs ⊆ r.subExpressions)
    (hk : (subs.all fun s => x.keeps root s.sub) = false)
    (hreads : ∀ s ∈ subs, x.ReadsSub root s.sub) : r.allPartials root subs = .ok none := by
  induction subs with
  | nil => simp at hk
  | cons s subs ih =>
    obtain ⟨hs, hsubs⟩ := List.cons_subset.1 hsubs
    rw [allPartials_cons_eq_ok]
    cases hkeeps : x.keeps root s.sub with
    | false => exact .inl ⟨h.partials_of_not_keeps hs hkeeps, rfl⟩
    | true =>
      have hrest := ih hsubs (by simpa [hkeeps] using hk) fun t ht =>
        hreads t (List.mem_cons_of_mem _ ht)
      have hfirst := (h.partials_of_keeps hs hkeeps).2 ⟨hreads s List.mem_cons_self, rfl⟩
      exact .inr ⟨_, none, hfirst, hrest, rfl⟩

lemma all_keeps (root : Row) :
    (r.subExpressions.all fun s => x.keeps root s.sub) =
      x.plan.subExpressions.all (x.keeps root) := by
  rw [← h.map_sub, List.all_map]
  rfl

lemma forall_readsSub (root : Row) :
    (∀ s ∈ r.subExpressions, x.ReadsSub root s.sub) ↔
      ∀ s ∈ x.plan.subExpressions, x.ReadsSub root s := by
  rw [← h.map_sub, List.forall_mem_map]

lemma map_tallies (root : Row) :
    (r.subExpressions.map fun s => tallies s.sub.aggregates (x.subRows s.sub root)) =
      x.plan.subExpressions.map fun s => tallies s.aggregates (x.subRows s root) := by
  rw [← h.map_sub, List.map_map]
  rfl

/-- The shares of a root row are what it shares in full, and they need all its values to be read. -/
theorem shares_eq_ok {ss : List Share} (hss : r.shares root = .ok ss) :
    ss = x.rootShares root ∧ x.Reads root := by
  unfold Ready.shares at hss
  rw [h.admits] at hss
  by_cases hadmits : x.admits root
  · rw [if_neg (by simpa using hadmits)] at hss
    obtain ⟨found, hfound, hss⟩ := bind_eq_ok.1 hss
    cases hkeeps : x.plan.subExpressions.all (x.keeps root) with
    | false =>
      have hnone := h.allPartials_of_not_keeps (List.Subset.refl _)
        ((h.all_keeps root).trans hkeeps) hfound
      subst hnone
      cases hss
      simp [Run.rootShares, Run.Reads, Run.counts, hkeeps]
    | true =>
      have hcounts : x.counts root := by simp [Run.counts, hadmits, hkeeps]
      obtain ⟨hsubs, rfl⟩ := (h.allPartials_of_keeps (List.Subset.refl _)
        ((h.all_keeps root).trans hkeeps)).1 hfound
      simp only [h.mainRows] at hss
      obtain ⟨contributions, hcontributions, hss⟩ := bind_eq_ok.1 hss
      cases hss
      obtain ⟨hmain, rfl⟩ := (mapM_eq_ok_iff_map (fun b c => contribution_eq_ok) _ _).1 hcontributions
      rw [h.plan] at hmain
      refine ⟨?_, fun _ => ⟨(h.forall_readsSub root).1 hsubs, hmain⟩⟩
      simp only [Run.rootShares, hcounts, if_true, h.plan, h.map_tallies]
  · rw [if_pos (by simpa using hadmits)] at hss
    cases hss
    simp [Run.rootShares, Run.Reads, Run.counts, hadmits]

theorem shares_of_reads (hsubs : ∀ s ∈ x.plan.subExpressions, x.ReadsSub root s)
    (hreads : x.Reads root) : r.shares root = .ok (x.rootShares root) := by
  unfold Ready.shares
  rw [h.admits]
  by_cases hadmits : x.admits root
  · rw [if_neg (by simpa using hadmits), bind_eq_ok]
    cases hkeeps : x.plan.subExpressions.all (x.keeps root) with
    | false =>
      refine ⟨none, h.allPartials_of_reads (List.Subset.refl _)
        ((h.all_keeps root).trans hkeeps) ((h.forall_readsSub root).2 hsubs), ?_⟩
      simp [Run.rootShares, Run.counts, hkeeps, pure, Except.pure]
    | true =>
      have hcounts : x.counts root := by simp [Run.counts, hadmits, hkeeps]
      have hmain := (hreads hcounts).2
      rw [← h.plan] at hmain
      refine ⟨_, (h.allPartials_of_keeps (List.Subset.refl _)
        ((h.all_keeps root).trans hkeeps)).2 ⟨(h.forall_readsSub root).2 hsubs, rfl⟩, ?_⟩
      simp only [h.mainRows]
      refine bind_eq_ok.2 ⟨_,
        (mapM_eq_ok_iff_map (fun b c => contribution_eq_ok) _ _).2 ⟨hmain, rfl⟩, ?_⟩
      simp only [Run.rootShares, hcounts, if_true, h.plan, h.map_tallies]
      rfl
  · rw [if_pos (by simpa using hadmits)]
    simp [Run.rootShares, Run.counts, hadmits, pure, Except.pure]

lemma mapM_shares_of_reads
    (hsubs : ∀ root ∈ x.roots, ∀ s ∈ x.plan.subExpressions, x.ReadsSub root s)
    (hreads : ∀ root ∈ x.roots, x.Reads root) :
    x.roots.mapM r.shares = .ok (x.roots.map x.rootShares) := by
  rw [mapM_eq_ok, List.forall₂_map_right_iff, List.forall₂_same]
  exact fun root hroot => h.shares_of_reads (hsubs root hroot) (hreads root hroot)

end Ready.Of

lemma allPartials_congr {r r' : Ready} {subs subs' : List ReadySub}
    (h : List.Forall₂ (fun s s' => r'.partials root s' = r.partials root s) subs subs') :
    r'.allPartials root subs' = r.allPartials root subs := by
  induction h with
  | nil => rfl
  | cons hs _ ih => rw [Ready.allPartials, Ready.allPartials, hs, ih]

/-- A root row shares the same in two runs that admit it alike, with the same rows. -/
theorem Ready.Of.shares_congr {x' : Run} {r' : Ready} (h : r.Of x) (h' : r'.Of x')
    (hkeys : x'.plan.groupKeys = x.plan.groupKeys)
    (hlocals : x'.plan.localAggregates = x.plan.localAggregates)
    (hadmits : x'.admits root = x.admits root) (hmain : x'.mainRows root = x.mainRows root)
    (hpartials : List.Forall₂ (fun s s' => r'.partials root s' = r.partials root s)
      r.subExpressions r'.subExpressions) : r'.shares root = r.shares root := by
  have hcontribution : r'.contribution = r.contribution := by
    funext b
    simp only [Ready.contribution, h'.plan, h.plan, hkeys, hlocals]
  unfold Ready.shares
  rw [h'.admits, h.admits, hadmits, allPartials_congr hpartials, hcontribution]
  simp only [h'.mainRows, h.mainRows, hmain]

/-- What is made of shares has to do with the outputs of a plan, its group keys and its aggregates only. -/
lemma tuples_congr {p p' : Plan} (hkeys : p'.groupKeys = p.groupKeys)
    (hlocals : p'.localAggregates = p.localAggregates)
    (hsubs : p'.subExpressions.map (·.aggregates) = p.subExpressions.map (·.aggregates))
    (houtputs : p'.outputs = p.outputs) : tuples p' = tuples p := by
  have hzero : ∀ p : Plan, Totals.zero p = ⟨p.localAggregates.map fun a => .new a.function,
      (p.subExpressions.map (·.aggregates)).map fun as => as.map fun a => .new a.function⟩ := fun p => by
    rw [Totals.zero, List.map_map]
    rfl
  have hcells : ∀ (p : Plan) (t : Totals), t.cells p =
      (p.localAggregates.zip t.locals).map (fun a => (a.1.outputIndex, a.2.finish)) ++
        ((p.subExpressions.map (·.aggregates)).zip t.subs).flatMap fun s =>
          (s.1.zip s.2).map fun a => (a.1.outputIndex, a.2.finish) := fun p t => by
    rw [Totals.cells, List.zip_map_left, List.flatMap_map]
    rfl
  have htuple : tuple p' = tuple p := by
    funext key totals
    simp only [tuple, hcells, hkeys, hlocals, houtputs, hsubs]
  funext shares
  simp only [tuples, Plan.isGlobal, htuple, hzero, hkeys, hlocals, hsubs]

lemma filter_contributions (p : Plan) (bs : List Binding) (text : String) :
    (bs.map (contributionOf p)).filter (fun c => c.keyText = text) =
      (bs.filter fun b => groupText p b = text).map (contributionOf p) := by
  rw [List.filter_map]
  rfl

lemma foldl_zipWith_addRead (p : Plan) (rows bs : List Binding) :
    (bs.map (contributionOf p)).foldl (fun locals c => locals.zipWith Accumulator.addRead c.inputs)
      (tallies p.localAggregates rows) = tallies p.localAggregates (rows ++ bs) := by
  induction bs generalizing rows with
  | nil => simp
  | cons b bs ih =>
    have hnext : (tallies p.localAggregates rows).zipWith Accumulator.addRead
        (contributionOf p b).inputs = tallies p.localAggregates (rows ++ [b]) := by
      simp only [tallies, contributionOf, List.zipWith_map, List.zipWith_self]
      simp [valuesOf, tally_append_singleton]
    rw [List.map_cons, List.foldl_cons, hnext, ih, List.append_assoc]
    rfl

lemma zipWith_mergedTallies (aggregates : List Aggregate) (parts : List (List Binding))
    (rows : List Binding) :
    (mergedTallies aggregates parts).zipWith Accumulator.merge (tallies aggregates rows) =
      mergedTallies aggregates (parts ++ [rows]) := by
  simp only [mergedTallies, tallies, List.zipWith_map, List.zipWith_self]
  simp [List.foldl_append]

section
variable (rows : List Contribution) (partials : List (List Accumulator))

/-- Among the shares of one root row at most one goes to a group, with all joined rows under its text. -/
lemma filter_shares (text : String) :
    ((groupBy Contribution.keyText rows).map fun g => (⟨g, partials⟩ : Share)).filter (fun s => s.keyText = text) =
      (rows.filter fun c => c.keyText = text).head?.toList.map
        fun c => ⟨groupOf Contribution.keyText rows c, partials⟩ := by
  rw [groupBy_eq, List.map_map, List.filter_map, ← filter_firsts]
  rfl

lemma map_first_shares :
    ((groupBy Contribution.keyText rows).map fun g => (⟨g, partials⟩ : Share)).map (·.rows.first) =
      firsts Contribution.keyText rows := by
  rw [groupBy_eq, List.map_map, List.map_map]
  exact List.map_id _

end

/-- Where the shares of every part begin with the rows that come first in it, all shares begin with the rows that come
first in the whole. -/
lemma map_firsts_flatMap {α : Type} {shares : α → List Share} (rows : α → List Contribution)
    (h : ∀ x, (shares x).map (·.rows.first) = firsts Contribution.keyText (rows x)) (xs : List α) :
    (firsts Share.keyText (xs.flatMap shares)).map (·.rows.first) = firsts Contribution.keyText (xs.flatMap rows) :=
  calc (firsts Share.keyText (xs.flatMap shares)).map (·.rows.first)
      = firsts Contribution.keyText ((xs.flatMap shares).map (·.rows.first)) :=
        firsts_map Contribution.keyText (fun s : Share => s.rows.first) _
    _ = firsts Contribution.keyText (xs.flatMap fun x => firsts Contribution.keyText (rows x)) := by
        rw [List.map_flatMap, funext h]
    _ = _ := firsts_flatMap_firsts _ _ _

/-- The tuples of the groups of shares. -/
lemma map_groups_shares (p : Plan) (shares : List Share) :
    (groupBy Share.keyText shares).map (fun g => tuple p g.first.key (g.toList.foldl Totals.add (.zero p))) =
      ((firsts Share.keyText shares).map (·.rows.first)).map fun c =>
        tuple p c.key ((shares.filter fun s => s.keyText = c.keyText).foldl Totals.add (.zero p)) := by
  rw [groupBy_eq, List.map_map, List.map_map]
  apply List.map_congr_left
  intro s hs
  rw [Function.comp_apply, toList_groupOf hs]
  rfl

namespace Run

lemma filter_rootShares (hcounts : x.counts root) :
    (x.rootShares root).filter (fun s => s.keyText = text) =
      (((x.mainRows root).map (contributionOf x.plan)).filter fun c => c.keyText = text).head?.toList.map
        fun c => ⟨groupOf Contribution.keyText ((x.mainRows root).map (contributionOf x.plan)) c,
          x.plan.subExpressions.map fun s => tallies s.aggregates (x.subRows s root)⟩ := by
  rw [rootShares, if_pos hcounts, filter_shares]

lemma foldl_add_rootShares (x : Run) (roots : List Row) (root : Row) (text : String) :
    ((x.rootShares root).filter fun s => s.keyText = text).foldl Totals.add (x.totals roots text) =
      x.totals (roots ++ [root]) text := by
  by_cases hcounts : x.counts root
  · have hbindings : (x.bindings (roots ++ [root])).filter (fun b => groupText x.plan b = text) =
        (x.bindings roots).filter (fun b => groupText x.plan b = text) ++
          (x.mainRows root).filter fun b => groupText x.plan b = text := by
      simp [bindings, hcounts]
    have hmain := filter_contributions x.plan (x.mainRows root) text
    rw [filter_rootShares hcounts]
    unfold totals
    rw [hbindings]
    cases hrows : (x.mainRows root).filter fun b => groupText x.plan b = text with
    | nil =>
      have hmembers : x.members (roots ++ [root]) text = x.members roots text := by
        have hany : ((x.mainRows root).any fun b => groupText x.plan b = text) = false := by
          rw [List.any_eq_false]
          exact List.filter_eq_nil_iff.1 hrows
        simp [members, hcounts, hany]
      rw [hmain, hrows, hmembers]
      simp
    | cons b bs =>
      have hmembers : x.members (roots ++ [root]) text = x.members roots text ++ [root] := by
        have hany : ((x.mainRows root).any fun b => groupText x.plan b = text) = true := by
          have hb : b ∈ (x.mainRows root).filter fun b => groupText x.plan b = text :=
            hrows ▸ List.mem_cons_self
          rw [List.any_eq_true]
          exact ⟨b, List.mem_filter.1 hb⟩
        simp [members, hcounts, hany]
      -- the share's group holds all joined rows under the text
      have hgroup : (groupOf Contribution.keyText ((x.mainRows root).map (contributionOf x.plan))
          (contributionOf x.plan b)).toList = (b :: bs).map (contributionOf x.plan) :=
        toList_groupOf_head (by rw [hmain, hrows, List.map_cons])
      rw [hmain, hrows, hmembers]
      simp only [List.map_cons, List.head?_cons, Option.toList_some, List.map_nil, List.foldl_cons,
        List.foldl_nil, Totals.add, Totals.mk.injEq]
      refine ⟨?_, ?_⟩
      · rw [hgroup, foldl_zipWith_addRead]
      · simp only [List.zipWith_map, List.zipWith_self, zipWith_mergedTallies, List.map_append,
          List.map_cons, List.map_nil]
  · simp [rootShares, hcounts, totals, bindings, members]

/-- The shares under a text add up to the accumulators of its group. -/
theorem foldl_add_shares (x : Run) (roots : List Row) (text : String) :
    ((roots.flatMap x.rootShares).filter fun s => s.keyText = text).foldl Totals.add
      (.zero x.plan) = x.totals roots text := by
  induction roots using List.reverseRecOn with
  | nil => rfl
  | append_singleton roots root ih =>
    rw [List.flatMap_append, List.filter_append, List.foldl_append, ih, List.flatMap_singleton,
      foldl_add_rootShares]

/-- The groups of the shares begin with the joined rows that come first under their texts. -/
theorem firsts_shares (x : Run) (roots : List Row) :
    (firsts Share.keyText (roots.flatMap x.rootShares)).map (·.rows.first) =
      (firsts (groupText x.plan) (x.bindings roots)).map (contributionOf x.plan) := by
  have hroot : ∀ root, (x.rootShares root).map (·.rows.first) = firsts Contribution.keyText
      (if x.counts root then (x.mainRows root).map (contributionOf x.plan) else []) := by
    intro root
    unfold rootShares
    split_ifs
    · exact map_first_shares _ _
    · rfl
  have hrows : (roots.flatMap fun root => if x.counts root then (x.mainRows root).map (contributionOf x.plan) else []) =
      (x.bindings roots).map (contributionOf x.plan) := by
    unfold bindings
    induction roots with
    | nil => rfl
    | cons root roots ih => by_cases h : x.counts root <;> simp [h, ih]
  rw [map_firsts_flatMap _ hroot, hrows]
  exact (firsts_map Contribution.keyText (contributionOf x.plan) _).symm

theorem tuples_rootShares (x : Run) (roots : List Row) :
    tuples x.plan (roots.flatMap x.rootShares) = x.result roots := by
  have hmap : (groupBy Share.keyText (roots.flatMap x.rootShares)).map (fun g =>
        tuple x.plan g.first.key (g.toList.foldl Totals.add (.zero x.plan))) =
      (firsts (groupText x.plan) (x.bindings roots)).map fun b =>
        tuple x.plan (groupValues x.plan b) (x.totals roots (groupText x.plan b)) := by
    rw [map_groups_shares, firsts_shares, List.map_map]
    simp only [foldl_add_shares]
    rfl
  unfold tuples result
  cases hgroups : groupBy Share.keyText (roots.flatMap x.rootShares) with
  | nil =>
    rw [hgroups, List.map_nil, eq_comm, List.map_eq_nil_iff] at hmap
    simp only [hmap]
  | cons g gs =>
    rw [hgroups] at hmap
    cases hbs : firsts (groupText x.plan) (x.bindings roots) with
    | nil =>
      rw [hbs] at hmap
      cases hmap
    | cons b bs =>
      rw [hbs] at hmap
      exact hmap

end Run

theorem mapM_shares_eq_ok (h : r.Of x) {shares : List (List Share)}
    (hs : roots.mapM r.shares = .ok shares) :
    shares.flatten = roots.flatMap x.rootShares ∧ ∀ root ∈ roots, x.Reads root := by
  rw [mapM_eq_ok] at hs
  induction hs with
  | nil => simp
  | cons hroot _ ih =>
    obtain ⟨rfl, hreads⟩ := h.shares_eq_ok hroot
    obtain ⟨hflat, hall⟩ := ih
    exact ⟨by rw [List.flatten_cons, List.flatMap_cons, hflat], List.forall_mem_cons.2 ⟨hreads, hall⟩⟩

/-- An evaluation that succeeds gives the sorted tuples of all groups. -/
theorem evaluate_eq_ok {ts : List Tuple} (h : evaluate x.tables x.specials x.plan = .ok ts) :
    (∃ r, Ready.Of x r) ∧ (∀ root ∈ x.roots, x.Reads root) ∧
      ts = SortKey.sort x.plan.sortKeys (x.result x.roots) := by
  obtain ⟨r, hr, h⟩ := bind_eq_ok.1 h
  obtain ⟨shares, hshares, h⟩ := bind_eq_ok.1 h
  cases h
  have hof := ofPlan_eq_ok.1 hr
  obtain ⟨hflat, hreads⟩ := mapM_shares_eq_ok hof hshares
  refine ⟨⟨r, hof⟩, hreads, ?_⟩
  rw [← Run.tuples_rootShares, hflat]
  rfl

theorem evaluate_of_reads (h : r.Of x)
    (hsubs : ∀ root ∈ x.roots, ∀ s ∈ x.plan.subExpressions, x.ReadsSub root s)
    (hreads : ∀ root ∈ x.roots, x.Reads root) :
    evaluate x.tables x.specials x.plan =
      .ok (SortKey.sort x.plan.sortKeys (x.result x.roots)) := by
  have hshares := h.mapM_shares_of_reads hsubs hreads
  refine bind_eq_ok.2 ⟨r, ofPlan_eq_ok.2 h, bind_eq_ok.2 ⟨_, hshares, ?_⟩⟩
  rw [← Run.tuples_rootShares, List.flatMap_def]
  rfl

end Tabulation.Evaluation
