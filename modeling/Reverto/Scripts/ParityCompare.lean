import Mathlib.Tactic

/-!
# Pairing paper and live deals (scripts/parity_compare.py, match_deals)

Times are the microseconds of a `datetime`. The loops carry the nearest candidate and
the pairs with the ids of the live deals they used.
-/

namespace Reverto

namespace ParityCompare

/-- The keys of a deal that `match_deals` reads. -/
structure ParityDeal where
  id : String
  openedAt : ℤ
  deriving DecidableEq, Repr

/-- `Pair`, with the flags that are computed later. -/
structure Pair where
  paper : ParityDeal
  live : ParityDeal
  deltaS : ℚ
  flags : List String := []
  deriving DecidableEq, Repr

/-- `abs((live["opened_at"] - p["opened_at"]).total_seconds())` -/
def deltaSeconds (p l : ParityDeal) : ℚ := |((l.openedAt - p.openedAt : ℤ) : ℚ) / 1000000|

variable (windowS : ℤ)

/-- One round of the inner loop: `best` with `best_delta`, where none is infinitely far. -/
def nearer (usedLive : List String) (p : ParityDeal) (best : Option (ParityDeal × ℚ))
    (l : ParityDeal) : Option (ParityDeal × ℚ) :=
  if l.id ∈ usedLive then best
  else if deltaSeconds p l ≤ windowS ∧ ∀ b ∈ best, deltaSeconds p l < b.2 then
    some (l, deltaSeconds p l)
  else best

/-- One round of the outer loop, over `pairs` and `used_live`. -/
def matchOne (liveDeals : List ParityDeal) (acc : List Pair × List String) (p : ParityDeal) :
    List Pair × List String :=
  match liveDeals.foldl (nearer windowS acc.2 p) none with
  | none => acc
  | some (best, bestDelta) => (acc.1 ++ [{ paper := p, live := best, deltaS := bestDelta }],
      acc.2 ++ [best.id])

/-- `match_deals`: the pairs, the unmatched paper deals and the unmatched live deals. -/
def matchDeals (paperDeals liveDeals : List ParityDeal) :
    List Pair × List ParityDeal × List ParityDeal :=
  let acc := paperDeals.foldl (matchOne windowS liveDeals) ([], [])
  let matchedPaperIds := acc.1.map (·.paper.id)
  (acc.1, paperDeals.filter (fun p => p.id ∉ matchedPaperIds),
    liveDeals.filter (fun l => l.id ∉ acc.2))

/-- Two deals that may be paired by their opening times. -/
def Within (p l : ParityDeal) : Prop := deltaSeconds p l ≤ windowS

/-! ### The inner loop -/

theorem nearer_none (usedLive : List String) (p l : ParityDeal) (best : Option (ParityDeal × ℚ))
    (h : nearer windowS usedLive p best l = none) :
    best = none ∧ (l.id ∉ usedLive → ¬ Within windowS p l) := by
  unfold nearer at h
  split at h
  · rename_i hused
    exact ⟨h, fun hn => absurd hused hn⟩
  · split at h
    · cases h
    · rename_i hfar
      subst h
      refine ⟨rfl, fun _ hw => hfar ⟨hw, fun b hb => ?_⟩⟩
      cases hb

theorem nearer_some (usedLive : List String) (p l b : ParityDeal) (d : ℚ)
    (best : Option (ParityDeal × ℚ)) (h : nearer windowS usedLive p best l = some (b, d)) :
    best = some (b, d) ∨ (b = l ∧ d = deltaSeconds p l ∧ l.id ∉ usedLive ∧ Within windowS p l) := by
  unfold nearer at h
  split at h
  · exact .inl h
  · rename_i hfree
    split at h
    · rename_i hnear
      cases h
      exact .inr ⟨rfl, rfl, hfree, hnear.1⟩
    · exact .inl h

/-- No candidate is found only where no unclaimed live deal is in the window. -/
theorem nearest_none (usedLive : List String) (p : ParityDeal) (liveDeals : List ParityDeal)
    (best : Option (ParityDeal × ℚ))
    (h : liveDeals.foldl (nearer windowS usedLive p) best = none) :
    best = none ∧ ∀ l ∈ liveDeals, l.id ∉ usedLive → ¬ Within windowS p l := by
  induction liveDeals generalizing best with
  | nil => exact ⟨h, fun l hl => by cases hl⟩
  | cons x xs ih =>
    obtain ⟨hhead, htail⟩ := ih (nearer windowS usedLive p best x) h
    obtain ⟨hbest, hx⟩ := nearer_none windowS usedLive p x best hhead
    refine ⟨hbest, fun l hl => ?_⟩
    rcases List.mem_cons.mp hl with rfl | hl
    · exact hx
    · exact htail l hl

/-- The candidate is an unclaimed live deal in the window. -/
theorem nearest_some (usedLive : List String) (p b : ParityDeal) (d : ℚ)
    (liveDeals : List ParityDeal) (best : Option (ParityDeal × ℚ))
    (h : liveDeals.foldl (nearer windowS usedLive p) best = some (b, d)) :
    best = some (b, d) ∨
      (b ∈ liveDeals ∧ d = deltaSeconds p b ∧ b.id ∉ usedLive ∧ Within windowS p b) := by
  induction liveDeals generalizing best with
  | nil => exact .inl h
  | cons x xs ih =>
    rcases ih (nearer windowS usedLive p best x) h with hhead | ⟨hb, hrest⟩
    · rcases nearer_some windowS usedLive p x b d best hhead with hbest | ⟨rfl, hrest⟩
      · exact .inl hbest
      · exact .inr ⟨List.mem_cons_self, hrest⟩
    · exact .inr ⟨List.mem_cons_of_mem x hb, hrest⟩

/-! ### The outer loop -/

/-- What holds after the paper deals `done`. -/
structure Pairing (liveDeals done : List ParityDeal) (acc : List Pair × List String) : Prop where
  inOrder : (acc.1.map (·.paper)).Sublist done
  used : acc.2 = acc.1.map (·.live.id)
  usedOnce : acc.2.Nodup
  paired : ∀ pr ∈ acc.1, pr.live ∈ liveDeals ∧ pr.deltaS = deltaSeconds pr.paper pr.live ∧
    Within windowS pr.paper pr.live
  left : ∀ p ∈ done, p ∉ acc.1.map (·.paper) →
    ∀ l ∈ liveDeals, l.id ∉ acc.2 → ¬ Within windowS p l

theorem pairing_nil (liveDeals : List ParityDeal) : Pairing windowS liveDeals [] ([], []) where
  inOrder := List.Sublist.refl []
  used := rfl
  usedOnce := List.nodup_nil
  paired := fun pr hpr => by cases hpr
  left := fun p hp => by cases hp

theorem pairing_matchOne (liveDeals done : List ParityDeal) (acc : List Pair × List String)
    (p : ParityDeal) (h : Pairing windowS liveDeals done acc) :
    Pairing windowS liveDeals (done ++ [p]) (matchOne windowS liveDeals acc p) := by
  unfold matchOne
  cases hbest : liveDeals.foldl (nearer windowS acc.2 p) none with
  | none =>
    have hnone := (nearest_none windowS acc.2 p liveDeals none hbest).2
    refine { h with
      inOrder := h.inOrder.trans (List.sublist_append_left done [p])
      left := fun q hq hnot => ?_ }
    rcases List.mem_append.mp hq with hq | hq
    · exact h.left q hq hnot
    · rw [List.mem_singleton.mp hq]
      exact hnone
  | some found =>
    obtain ⟨best, bestDelta⟩ := found
    rcases nearest_some windowS acc.2 p best bestDelta liveDeals none hbest with hn | hfound
    · cases hn
    · obtain ⟨hmem, hdelta, hfree, hwithin⟩ := hfound
      dsimp only
      constructor
      · rw [List.map_append]
        exact h.inOrder.append (List.Sublist.refl [p])
      · rw [List.map_append, ← h.used]
        rfl
      · have honce := List.nodup_concat acc.2 best.id |>.mpr ⟨hfree, h.usedOnce⟩
        rw [List.concat_eq_append] at honce
        exact honce
      · intro pr hpr
        rcases List.mem_append.mp hpr with hpr | hpr
        · exact h.paired pr hpr
        · rw [List.mem_singleton.mp hpr]
          exact ⟨hmem, hdelta, hwithin⟩
      · intro q hq hnot l hl hlfree
        rw [List.map_append, List.mem_append, not_or] at hnot
        rw [List.mem_append, not_or] at hlfree
        rcases List.mem_append.mp hq with hq | hq
        · exact h.left q hq hnot.1 l hl hlfree.1
        · exact absurd hq hnot.2

theorem pairing_foldl (liveDeals done rest : List ParityDeal) (acc : List Pair × List String)
    (h : Pairing windowS liveDeals done acc) :
    Pairing windowS liveDeals (done ++ rest) (rest.foldl (matchOne windowS liveDeals) acc) := by
  induction rest generalizing done acc with
  | nil =>
    rw [List.append_nil]
    exact h
  | cons p ps ih =>
    have hone := pairing_matchOne windowS liveDeals done acc p h
    have hrest := ih (done ++ [p]) _ hone
    rw [List.append_assoc] at hrest
    exact hrest

/-! ### The result -/

/-- Deals with unique ids are some chosen ones and those with another id than theirs. -/
theorem perm_chosen (deals chosen : List ParityDeal) (hids : (deals.map (·.id)).Nodup)
    (hchosen : (chosen.map (·.id)).Nodup) (hsub : ∀ d ∈ chosen, d ∈ deals) :
    (chosen ++ deals.filter fun d => d.id ∉ chosen.map (·.id)).Perm deals := by
  have hdeals : deals.Nodup := hids.of_map
  have happend : (chosen ++ deals.filter fun d => d.id ∉ chosen.map (·.id)).Nodup := by
    refine List.nodup_append.mpr ⟨hchosen.of_map, hdeals.filter _, fun a ha b hb hab => ?_⟩
    subst hab
    have hnot := (List.mem_filter.mp hb).2
    rw [decide_eq_true_iff] at hnot
    exact hnot (List.mem_map_of_mem ha)
  rw [List.perm_ext_iff_of_nodup happend hdeals]
  intro d
  rw [List.mem_append, List.mem_filter, decide_eq_true_iff]
  constructor
  · intro hd
    rcases hd with hd | hd
    · exact hsub d hd
    · exact hd.1
  · intro hd
    by_cases hid : d.id ∈ chosen.map (·.id)
    · obtain ⟨c, hc, hcid⟩ := List.mem_map.mp hid
      have heq : c = d := List.inj_on_of_nodup_map hids (hsub c hc) hd hcid
      rw [← heq]
      exact .inl hc
    · exact .inr ⟨hd, hid⟩

/-- What `match_deals` promises about its result. -/
structure Matching (paperDeals liveDeals : List ParityDeal)
    (result : List Pair × List ParityDeal × List ParityDeal) : Prop where
  paperOnce : (result.1.map (·.paper.id)).Nodup
  liveOnce : (result.1.map (·.live.id)).Nodup
  within : ∀ pr ∈ result.1, pr.deltaS = deltaSeconds pr.paper pr.live ∧ pr.deltaS ≤ windowS
  paperParts : (result.1.map (·.paper) ++ result.2.1).Perm paperDeals
  liveParts : (result.1.map (·.live) ++ result.2.2).Perm liveDeals
  maximal : ∀ p ∈ result.2.1, ∀ l ∈ result.2.2, ¬ deltaSeconds p l ≤ windowS

/-- With unique ids and any window the pairs use every deal at most once and are within the
window, both inputs are partitioned, and no two deals are left that could be a pair. -/
theorem matchDeals_matching (paperDeals liveDeals : List ParityDeal)
    (hpaper : (paperDeals.map (·.id)).Nodup) (hlive : (liveDeals.map (·.id)).Nodup) :
    Matching windowS paperDeals liveDeals (matchDeals windowS paperDeals liveDeals) := by
  have hpair := pairing_foldl windowS liveDeals [] paperDeals ([], []) (pairing_nil windowS liveDeals)
  rw [List.nil_append] at hpair
  unfold matchDeals
  revert hpair
  generalize paperDeals.foldl (matchOne windowS liveDeals) ([], []) = acc
  intro hpair
  have hpaperOnce : (acc.1.map (·.paper.id)).Nodup := by
    have hsub := hpair.inOrder.map (·.id)
    rw [List.map_map] at hsub
    exact hsub.nodup hpaper
  have hliveOnce : (acc.1.map (·.live.id)).Nodup := by
    rw [← hpair.used]
    exact hpair.usedOnce
  have hpaperIds : (acc.1.map (·.paper)).map (·.id) = acc.1.map (·.paper.id) := List.map_map
  have hliveIds : (acc.1.map (·.live)).map (·.id) = acc.2 := by
    rw [hpair.used]
    exact List.map_map
  refine ⟨hpaperOnce, hliveOnce, fun pr hpr => ?_, ?_, ?_, fun p hp l hl => ?_⟩
  · obtain ⟨_, hdelta, hwithin⟩ := hpair.paired pr hpr
    rw [hdelta]
    exact ⟨rfl, hwithin⟩
  · have hperm := perm_chosen paperDeals (acc.1.map (·.paper)) hpaper
      (by rw [hpaperIds]; exact hpaperOnce) fun d hd => hpair.inOrder.subset hd
    rw [hpaperIds] at hperm
    exact hperm
  · have hperm := perm_chosen liveDeals (acc.1.map (·.live)) hlive
      (by rw [hliveIds]; exact hpair.usedOnce) fun d hd => by
        obtain ⟨pr, hpr, rfl⟩ := List.mem_map.mp hd
        exact (hpair.paired pr hpr).1
    rw [hliveIds] at hperm
    exact hperm
  · obtain ⟨hp, hpfree⟩ := List.mem_filter.mp hp
    obtain ⟨hl, hlfree⟩ := List.mem_filter.mp hl
    rw [decide_eq_true_iff] at hpfree hlfree
    refine hpair.left p hp (fun hin => ?_) l hl hlfree
    rw [← hpaperIds] at hpfree
    exact hpfree (List.mem_map_of_mem hin)

/-- Two paper deals around one live deal: the first takes it. -/
theorem matchDeals_cluster :
    Matching 90 [⟨"P-1", 0⟩, ⟨"P-2", 6000000⟩] [⟨"L-1", 3000000⟩]
      (matchDeals 90 [⟨"P-1", 0⟩, ⟨"P-2", 6000000⟩] [⟨"L-1", 3000000⟩]) :=
  matchDeals_matching 90 _ _ (by decide) (by decide)

end ParityCompare

end Reverto
