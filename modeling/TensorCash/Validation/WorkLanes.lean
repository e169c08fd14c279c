import TensorCash.Consensus.CheckBlock

/-! `RecalculateBlockIndexWorkForFullValidation` and the skip list of `chain.cpp`. The candidate
sets that it fills at the end are left out. -/

namespace TensorCash

namespace WorkLanes

abbrev Ptr := Nat

/-- The part of an entry that the recalculation reads and never writes. -/
structure CBlockIndex where
  pprev : Option Ptr
  pskip : Option Ptr
  nHeight : Nat
  nBits : UInt32
  nStatus : UInt32
  nSequenceId : Int

def BLOCK_VALID_TREE : UInt32 := 2
def BLOCK_VALID_MASK : UInt32 := 7
def BLOCK_FAILED_MASK : UInt32 := 96
def BLOCK_FULL_RED_LOCAL : UInt32 := 512
def BLOCK_MODEL_CHALLENGE_ZERO_WORK : UInt32 := 1024

namespace CBlockIndex

variable (block : CBlockIndex)

def failed : Bool := block.nStatus &&& BLOCK_FAILED_MASK ≠ 0

def isValidTree : Bool := !block.failed && BLOCK_VALID_TREE ≤ block.nStatus &&& BLOCK_VALID_MASK

def fullRed : Bool := block.nStatus &&& BLOCK_FULL_RED_LOCAL ≠ 0

def zeroWork : Bool := block.fullRed || block.nStatus &&& BLOCK_MODEL_CHALLENGE_ZERO_WORK ≠ 0

end CBlockIndex

def getBlockProof (block : CBlockIndex) : Uint256 :=
  let (bnTarget, fNegative, fOverflow) := setCompact block.nBits
  if fNegative || fOverflow || bnTarget = 0 then 0
  else Fin.ofNat _ ((2 ^ 256 - 1 - bnTarget) / (bnTarget + 1) + 1)

def invertLowestOne (n : Nat) : Nat := n &&& (n - 1)

def getSkipHeight (height : Nat) : Nat :=
  if height < 2 then 0
  else if height % 2 = 1 then invertLowestOne (invertLowestOne (height - 1)) + 1
  else invertLowestOne height

section Ancestors

variable (index : Ptr → CBlockIndex)

/-- The loop of `GetAncestor`. The height falls in every round, so it is fuel enough. -/
def walk (height : Nat) : Nat → Ptr → Nat → Option Ptr
  | 0, pindexWalk, heightWalk => if height < heightWalk then none else some pindexWalk
  | fuel + 1, pindexWalk, heightWalk =>
    if height < heightWalk then
      let heightSkip := getSkipHeight heightWalk
      let heightSkipPrev := getSkipHeight (heightWalk - 1)
      match (index pindexWalk).pskip with
      | some pskip =>
        -- Only follow pskip if pprev->pskip isn't better than pskip->pprev.
        if heightSkip = height ∨
            height < heightSkip ∧ ¬ (heightSkipPrev + 2 < heightSkip ∧ height ≤ heightSkipPrev) then
          walk height fuel pskip heightSkip
        else (index pindexWalk).pprev.bind fun pprev => walk height fuel pprev (heightWalk - 1)
      | none => (index pindexWalk).pprev.bind fun pprev => walk height fuel pprev (heightWalk - 1)
    else some pindexWalk

def getAncestor (p : Ptr) (height : Nat) : Option Ptr :=
  if (index p).nHeight < height then none
  else walk index height (index p).nHeight p (index p).nHeight

def walkBack : Nat → Ptr → Option Ptr
  | 0, p => some p
  | steps + 1, p => (index p).pprev.bind (walkBack steps)

end Ancestors

/-- A tree of blocks: parents are one below, and skips are `BuildSkip`'s. -/
structure BlockTree where
  index : Ptr → CBlockIndex
  /-- `GetAllBlockIndices`, in any order. -/
  entries : List Ptr
  distinct : entries.Nodup
  parent : ∀ p ∈ entries, ∀ q, (index p).pprev = some q → q ∈ entries ∧ (index p).nHeight = (index q).nHeight + 1
  first : ∀ p ∈ entries, (index p).pprev = none → (index p).nHeight = 0
  skip : ∀ p ∈ entries, (index p).pskip =
    (index p).pprev.bind fun q => getAncestor index q (getSkipHeight (index p).nHeight)

structure WorkIndex where
  nChainWork : Ptr → Uint256
  nChainPenalty : Ptr → Uint256
  nChainWorkRaw : Ptr → Uint256
  m_dirty_blockindex : List Ptr := []
  m_best_header : Option Ptr := none
  m_best_invalid : Option Ptr := none

section Recalculate

variable (t : BlockTree)

def ownWork (p : Ptr) : Uint256 := if (t.index p).zeroWork then 0 else getBlockProof (t.index p)

def ownPenalty (p : Ptr) : Uint256 :=
  if (t.index p).fullRed then
    match (t.index p).pprev with
    | some q => getBlockProof (t.index q)
    | none => getBlockProof (t.index p)
  else 0

def affected (pindex_start : Option Ptr) : List Ptr :=
  t.entries.filter fun p =>
    pindex_start.all fun s =>
      ¬ (t.index p).nHeight < (t.index s).nHeight ∧ getAncestor t.index p (t.index s).nHeight = some s

def relane (w : WorkIndex) (p : Ptr) : WorkIndex :=
  let chain_work := ((t.index p).pprev.map w.nChainWork).getD 0 + ownWork t p
  let chain_penalty := ((t.index p).pprev.map w.nChainPenalty).getD 0 + ownPenalty t p
  if w.nChainWork p ≠ chain_work ∨ w.nChainPenalty p ≠ chain_penalty then
    { w with
      nChainWork := Function.update w.nChainWork p chain_work
      nChainPenalty := Function.update w.nChainPenalty p chain_penalty
      m_dirty_blockindex := p :: w.m_dirty_blockindex }
  else w

/-- `CBlockIndexWorkComparator`: the first block is worse than the second. -/
def workLess (w : WorkIndex) (a b : Ptr) : Bool :=
  if w.nChainWork b < w.nChainWork a then false
  else if w.nChainWork a < w.nChainWork b then true
  else if (t.index a).zeroWork ≠ (t.index b).zeroWork then (t.index a).zeroWork
  else if (t.index a).nSequenceId < (t.index b).nSequenceId then false
  else if (t.index b).nSequenceId < (t.index a).nSequenceId then true
  else b < a

def considerHeader (w : WorkIndex) (p : Ptr) : WorkIndex :=
  if (t.index p).failed then
    if w.m_best_invalid.all fun best => w.nChainWork best < w.nChainWork p then
      { w with m_best_invalid := some p }
    else w
  else if (t.index p).isValidTree && w.m_best_header.all fun best => workLess t w best p then
    { w with m_best_header := some p }
  else w

/-- `RecalculateBlockIndexWorkForFullValidation`, in sorted order. -/
def recalculate (order : List Ptr) (w : WorkIndex) : WorkIndex :=
  let w := order.foldl (relane t) w
  t.entries.foldl (considerHeader t) { w with m_best_header := none, m_best_invalid := none }

end Recalculate

theorem invertLowestOne_lt {n : Nat} (pos : 0 < n) : invertLowestOne n < n :=
  lt_of_le_of_lt Nat.and_le_right (by omega)

theorem getSkipHeight_lt {height : Nat} (pos : 0 < height) : getSkipHeight height < height := by
  unfold getSkipHeight
  split_ifs with low odd
  · exact pos
  · have once := invertLowestOne_lt (n := height - 1) (by omega)
    have twice : invertLowestOne (invertLowestOne (height - 1)) ≤ invertLowestOne (height - 1) := Nat.and_le_left
    omega
  · exact invertLowestOne_lt pos

namespace BlockTree

variable {t : BlockTree} {p q s : Ptr}

theorem walkBack_add (index : Ptr → CBlockIndex) (m n : Nat) (p : Ptr) :
    walkBack index (m + n) p = (walkBack index m p).bind (walkBack index n) := by
  induction m generalizing p with
  | zero => simp [walkBack]
  | succ m ih =>
    rw [Nat.succ_add, walkBack, walkBack]
    cases (index p).pprev with
    | none => rfl
    | some q => exact ih q

theorem exists_parent (member : p ∈ t.entries) (above : 0 < (t.index p).nHeight) :
    ∃ q, (t.index p).pprev = some q ∧ q ∈ t.entries ∧ (t.index p).nHeight = (t.index q).nHeight + 1 := by
  cases pprev : (t.index p).pprev with
  | none => exact absurd (t.first p member pprev) (by omega)
  | some q => exact ⟨q, rfl, t.parent p member q pprev⟩

theorem walkBack_eq_some (steps : Nat) (member : p ∈ t.entries)
    (low : steps ≤ (t.index p).nHeight) :
    ∃ q, walkBack t.index steps p = some q ∧ q ∈ t.entries ∧
      (t.index q).nHeight + steps = (t.index p).nHeight := by
  induction steps generalizing p with
  | zero => exact ⟨p, rfl, member, rfl⟩
  | succ steps ih =>
    obtain ⟨r, pprev, inside, height⟩ := exists_parent member (by omega)
    obtain ⟨q, found, there, below⟩ := ih inside (by omega)
    exact ⟨q, by rw [walkBack, pprev]; exact found, there, by omega⟩

theorem walk_eq {height : Nat} (member : p ∈ t.entries) (low : height ≤ (t.index p).nHeight)
    {fuel : Nat} (enough : (t.index p).nHeight ≤ fuel) : walk t.index height fuel p (t.index p).nHeight =
      walkBack t.index ((t.index p).nHeight - height) p := by
  -- Parents and skip pointers are both lower, so the induction is on the height.
  induction level : (t.index p).nHeight using Nat.strong_induction_on generalizing p height fuel with
  | _ level ih =>
  subst level
  by_cases arrived : height < (t.index p).nHeight
  · obtain ⟨q, pprev, inside, above⟩ := exists_parent member (by omega)
    obtain ⟨fuel, rfl⟩ : ∃ less, fuel = less + 1 := ⟨fuel - 1, by omega⟩
    have skips : getSkipHeight (t.index p).nHeight < (t.index p).nHeight := getSkipHeight_lt (by omega)
    have ancestor : getAncestor t.index q (getSkipHeight (t.index p).nHeight) =
        walkBack t.index ((t.index q).nHeight - getSkipHeight (t.index p).nHeight) q := by
      rw [getAncestor, if_neg (by omega)]
      exact ih _ (by omega) inside (by omega) le_rfl rfl
    obtain ⟨s, found, there, below⟩ := walkBack_eq_some
      ((t.index q).nHeight - getSkipHeight (t.index p).nHeight) inside (by omega)
    have skip : (t.index p).pskip = some s := by
      rw [t.skip p member, pprev]
      exact ancestor.trans found
    have from_skip : walkBack t.index ((t.index p).nHeight - getSkipHeight (t.index p).nHeight) p = some s := by
      rw [show (t.index p).nHeight - getSkipHeight (t.index p).nHeight =
        ((t.index q).nHeight - getSkipHeight (t.index p).nHeight) + 1 by omega, walkBack, pprev]
      exact found
    rw [walk, if_pos arrived]
    simp only [skip]
    split_ifs with follow
    · -- Down the skip pointer, which does not pass the height.
      have at_least : height ≤ getSkipHeight (t.index p).nHeight := by omega
      have level : (t.index s).nHeight = getSkipHeight (t.index p).nHeight := by omega
      have rest : walk t.index height fuel s (t.index s).nHeight = _ := ih _ (by omega) there (by omega) (by omega) rfl
      rw [level] at rest
      rw [rest, show (t.index p).nHeight - height = ((t.index p).nHeight - getSkipHeight (t.index p).nHeight) +
          (getSkipHeight (t.index p).nHeight - height) by omega, walkBack_add, from_skip]
      rfl
    · have rest : walk t.index height fuel q (t.index q).nHeight = _ := ih _ (by omega) inside (by omega) (by omega) rfl
      rw [pprev]
      change walk t.index height fuel q ((t.index p).nHeight - 1) = _
      rw [show (t.index p).nHeight - 1 = (t.index q).nHeight by omega, rest,
        show (t.index p).nHeight - height = ((t.index q).nHeight - height) + 1 by omega, walkBack, pprev]
      rfl
  · have same : (t.index p).nHeight - height = 0 := by omega
    rw [same]
    cases fuel with
    | zero => rw [walk, if_neg arrived]; rfl
    | succ fuel => rw [walk, if_neg arrived]; rfl

theorem getAncestor_eq {height : Nat} (member : p ∈ t.entries) (low : height ≤ (t.index p).nHeight) :
    getAncestor t.index p height = walkBack t.index ((t.index p).nHeight - height) p := by
  rw [getAncestor, if_neg (by omega)]
  exact walk_eq member low le_rfl

def lineage (t : BlockTree) (p : Ptr) : List Ptr :=
  (List.range ((t.index p).nHeight + 1)).filterMap fun steps => walkBack t.index steps p

theorem lineage_first (member : p ∈ t.entries) (pprev : (t.index p).pprev = none) : t.lineage p = [p] := by
  simp [lineage, t.first p member pprev, walkBack]

theorem lineage_parent (member : p ∈ t.entries) (pprev : (t.index p).pprev = some q) :
    t.lineage p = p :: t.lineage q := by
  obtain ⟨_, height⟩ := t.parent p member q pprev
  rw [lineage, List.range_succ_eq_map, List.filterMap_cons, List.filterMap_map, height]
  simp only [walkBack, lineage]
  congr 2
  funext steps
  simp [walkBack, pprev]

theorem mem_affected (known : s ∈ t.entries) : p ∈ affected t (some s) ↔ p ∈ t.entries ∧ s ∈ t.lineage p := by
  simp only [affected, List.mem_filter, Option.all_some, decide_eq_true_eq, not_lt, lineage,
    List.mem_filterMap, List.mem_range]
  refine and_congr_right fun member => ?_
  constructor
  · rintro ⟨low, found⟩
    rw [getAncestor_eq member low] at found
    exact ⟨_, by omega, found⟩
  · rintro ⟨steps, few, found⟩
    obtain ⟨q, there, _, height⟩ := walkBack_eq_some steps member (by omega)
    obtain rfl := Option.mem_unique there found
    have low : (t.index q).nHeight ≤ (t.index p).nHeight := by omega
    refine ⟨low, ?_⟩
    rw [getAncestor_eq member low, ← found]
    congr 1
    omega

end BlockTree

section Lanes

variable {t : BlockTree} {w : WorkIndex} {p : Ptr}

structure Folded (t : BlockTree) (w : WorkIndex) (p : Ptr) : Prop where
  work : (w.nChainWork p).val = ((t.lineage p).map fun q => (ownWork t q).val).sum % 2 ^ 256
  penalty : (w.nChainPenalty p).val = ((t.lineage p).map fun q => (ownPenalty t q).val).sum % 2 ^ 256

theorem relane_lanes (t : BlockTree) (w : WorkIndex) (p : Ptr) : (relane t w p).nChainWork =
        Function.update w.nChainWork p (((t.index p).pprev.map w.nChainWork).getD 0 + ownWork t p) ∧
      (relane t w p).nChainPenalty = Function.update w.nChainPenalty p
          (((t.index p).pprev.map w.nChainPenalty).getD 0 + ownPenalty t p) ∧
      (relane t w p).nChainWorkRaw = w.nChainWorkRaw := by
  unfold relane
  dsimp only
  split_ifs with changed
  · exact ⟨rfl, rfl, rfl⟩
  · -- Lanes that are right already are not written.
    simp only [ne_eq, not_or, not_not] at changed
    rw [← changed.1, ← changed.2]
    simp

theorem Folded.relane_of_ne {q : Ptr} (folded : Folded t w q) (other : q ≠ p) : Folded t (relane t w p) q := by
  obtain ⟨work, penalty, _⟩ := relane_lanes t w p
  refine ⟨?_, ?_⟩
  · rw [work, Function.update_of_ne other]
    exact folded.work
  · rw [penalty, Function.update_of_ne other]
    exact folded.penalty

theorem lane_step {own lane : Ptr → Uint256} (member : p ∈ t.entries)
    (parent : ∀ q, (t.index p).pprev = some q →
       (lane q).val = ((t.lineage q).map fun r => (own r).val).sum % 2 ^ 256) :
    (((t.index p).pprev.map lane).getD 0 + own p).val =
      ((t.lineage p).map fun r => (own r).val).sum % 2 ^ 256 := by
  cases pprev : (t.index p).pprev with
  | none =>
    rw [BlockTree.lineage_first member pprev, List.map_singleton, List.sum_singleton]
    simp only [Option.map_none, Option.getD_none, Fin.zero_add]
    exact (Nat.mod_eq_of_lt (own p).isLt).symm
  | some q =>
    rw [BlockTree.lineage_parent member pprev, List.map_cons, List.sum_cons, Option.map_some,
      Option.getD_some, Fin.val_add, parent q pprev, Nat.mod_add_mod, Nat.add_comm]

theorem Folded.relane_self (member : p ∈ t.entries)
    (parent : ∀ q, (t.index p).pprev = some q → Folded t w q) : Folded t (relane t w p) p := by
  obtain ⟨work, penalty, _⟩ := relane_lanes t w p
  refine ⟨?_, ?_⟩
  · rw [work, Function.update_self]
    exact lane_step member fun q pprev => (parent q pprev).work
  · rw [penalty, Function.update_self]
    exact lane_step member fun q pprev => (parent q pprev).penalty

theorem folded_of_pass {order done rest : List Ptr} (split : order = done ++ rest)
    (distinct : order.Nodup)
    (sorted : order.Pairwise fun a b => (t.index a).nHeight ≤ (t.index b).nHeight)
    (right : ∀ q ∈ t.entries, q ∉ rest → Folded t w q) :
    ∀ q ∈ t.entries, Folded t (rest.foldl (relane t) w) q := by
  induction rest generalizing done w with
  | nil => exact fun q member => right q member (by simp)
  | cons p rest ih =>
    rw [List.foldl_cons]
    have next : order = (done ++ [p]) ++ rest := by simp [split]
    refine ih next ?_
    have fresh : p ∉ rest := by
      rw [split] at distinct
      exact (List.nodup_cons.mp (List.nodup_append.mp distinct).2.1).1
    intro q member later
    by_cases is : q = p
    · subst is
      apply Folded.relane_self member
      intro r pprev
      obtain ⟨there, height⟩ := t.parent q member r pprev
      -- A parent is lower, so it does not come after its child.
      refine right r there ?_
      intro after
      rw [split] at sorted
      have above := (List.pairwise_append.mp sorted).2.1
      rcases List.mem_cons.mp after with same | behind
      · rw [same] at height
        omega
      · have := (List.pairwise_cons.mp above).1 r behind
        omega
    · exact (right q member (by simp [is, later])).relane_of_ne is

theorem raw_of_pass (t : BlockTree) (order : List Ptr) (w : WorkIndex) :
    (order.foldl (relane t) w).nChainWorkRaw = w.nChainWorkRaw := by
  induction order generalizing w with
  | nil => rfl
  | cons p rest ih => rw [List.foldl_cons, ih, (relane_lanes t w p).2.2]

end Lanes

section Headers

variable {t : BlockTree} {w : WorkIndex} {a b c p : Ptr}

theorem workLess_iff :
    workLess t w a b = true ↔
      w.nChainWork a < w.nChainWork b ∨
      w.nChainWork a = w.nChainWork b ∧
      ((t.index a).zeroWork = true ∧ (t.index b).zeroWork = false ∨
       (t.index a).zeroWork = (t.index b).zeroWork ∧
       ((t.index b).nSequenceId < (t.index a).nSequenceId ∨
        (t.index a).nSequenceId = (t.index b).nSequenceId ∧ b < a)) := by
  unfold workLess
  rcases lt_trichotomy (w.nChainWork a) (w.nChainWork b) with less | same | more
  · simp [less, less.not_gt]
  · simp only [same, lt_irrefl, if_false, false_or, true_and]
    cases (t.index a).zeroWork <;> cases (t.index b).zeroWork <;> grind
  · simp [more, more.not_gt, more.ne']

theorem workLess_irrefl : workLess t w a a = false := by
  rw [Bool.eq_false_iff, ne_eq, workLess_iff]
  simp

theorem workLess_trans (first : workLess t w a b = true) (second : workLess t w b c = true) :
    workLess t w a c = true := by
  rw [workLess_iff] at *
  rcases first with less | ⟨same, first⟩ <;> rcases second with less' | ⟨same', second⟩
  · exact .inl (less.trans less')
  · exact .inl (same' ▸ less)
  · exact .inl (same ▸ less')
  · refine .inr ⟨same.trans same', ?_⟩
    grind

def BestOf (t : BlockTree) (w : WorkIndex) (seen : List Ptr) : Prop :=
  match w.m_best_header with
  | none => ∀ p ∈ seen, (t.index p).isValidTree = false
  | some best => best ∈ seen ∧ (t.index best).isValidTree = true ∧
      ∀ p ∈ seen, (t.index p).isValidTree = true → workLess t w best p = false

theorem considerHeader_lanes (t : BlockTree) (w : WorkIndex) (p : Ptr) :
    (considerHeader t w p).nChainWork = w.nChainWork ∧ (considerHeader t w p).nChainPenalty = w.nChainPenalty ∧
      (considerHeader t w p).nChainWorkRaw = w.nChainWorkRaw := by
  unfold considerHeader
  split_ifs <;> exact ⟨rfl, rfl, rfl⟩

theorem workLess_congr {w' : WorkIndex} (same : w'.nChainWork = w.nChainWork) :
    workLess t w' a b = workLess t w a b := by
  unfold workLess
  rw [same]

theorem considerHeader_best (t : BlockTree) (w : WorkIndex) (p : Ptr) : (considerHeader t w p).m_best_header =
      if (t.index p).isValidTree && w.m_best_header.all fun best => workLess t w best p then some p
      else w.m_best_header := by
  unfold considerHeader
  by_cases failed : (t.index p).failed
  · have invalid : (t.index p).isValidTree = false := by simp [CBlockIndex.isValidTree, failed]
    simp only [failed, if_true, invalid, Bool.false_and, Bool.false_eq_true, if_false]
    split_ifs <;> rfl
  · simp only [failed, Bool.false_eq_true, if_false]
    split_ifs <;> rfl

theorem BestOf.consider {seen : List Ptr} (best : BestOf t w seen) :
    BestOf t (considerHeader t w p) (seen ++ [p]) := by
  have lanes := (considerHeader_lanes t w p).1
  have next := considerHeader_best t w p
  unfold BestOf at best ⊢
  rw [next]
  split_ifs with taken
  · -- The block is valid and better than the best so far, if there is one.
    simp only [Bool.and_eq_true] at taken
    refine ⟨by simp, taken.1, ?_⟩
    intro q member valid
    rw [workLess_congr lanes]
    rcases List.mem_append.mp member with old | new
    · cases former : w.m_best_header with
      | none =>
        rw [former] at best
        exact absurd valid (by simp [best q old])
      | some b =>
        rw [former] at best taken
        have better : workLess t w b p = true := taken.2
        by_contra worse
        have worst := workLess_trans better (by simpa using worse)
        rw [best.2.2 q old valid] at worst
        cases worst
    · rw [List.mem_singleton.mp new]
      exact workLess_irrefl
  · cases former : w.m_best_header with
    | none =>
      rw [former] at best taken
      intro q member
      rcases List.mem_append.mp member with old | new
      · exact best q old
      · rw [List.mem_singleton.mp new]
        simpa using taken
    | some b =>
      rw [former] at best taken
      refine ⟨by simp [best.1], best.2.1, ?_⟩
      intro q member valid
      rw [workLess_congr lanes]
      rcases List.mem_append.mp member with old | new
      · exact best.2.2 q old valid
      · obtain rfl := List.mem_singleton.mp new
        simpa [valid] using taken

theorem BestOf.search {seen : List Ptr} (best : BestOf t w seen) (rest : List Ptr) :
    BestOf t (rest.foldl (considerHeader t) w) (seen ++ rest) := by
  induction rest generalizing seen w with
  | nil => simpa using best
  | cons p rest ih =>
    have next := ih (best.consider (p := p))
    simpa using next

theorem search_lanes (t : BlockTree) (rest : List Ptr) (w : WorkIndex) :
    (rest.foldl (considerHeader t) w).nChainWork = w.nChainWork ∧
      (rest.foldl (considerHeader t) w).nChainPenalty = w.nChainPenalty ∧
      (rest.foldl (considerHeader t) w).nChainWorkRaw = w.nChainWorkRaw := by
  induction rest generalizing w with
  | nil => exact ⟨rfl, rfl, rfl⟩
  | cons p rest ih =>
    obtain ⟨work, penalty, raw⟩ := considerHeader_lanes t w p
    rw [List.foldl_cons, ← work, ← penalty, ← raw]
    exact ih _

end Headers

/-- For every tree, flags, start and order of the sort: the recalculation makes all lanes the sums
over their ancestors, if they were right outside the start's subtree; the raw lane stays; and the
best header is a maximum among the valid ones. -/
theorem lanes_are_folds (t : BlockTree) (w : WorkIndex) (pindex_start : Option Ptr) (order : List Ptr)
    (known : ∀ s ∈ pindex_start, s ∈ t.entries) (permuted : order.Perm (affected t pindex_start))
    (sorted : order.Pairwise fun a b => (t.index a).nHeight ≤ (t.index b).nHeight)
    (outside : ∀ s ∈ pindex_start, ∀ p ∈ t.entries, s ∉ t.lineage p → Folded t w p) :
    (∀ p ∈ t.entries, Folded t (recalculate t order w) p) ∧
      (recalculate t order w).nChainWorkRaw = w.nChainWorkRaw ∧ BestOf t (recalculate t order w) t.entries := by
  obtain ⟨work, penalty, raw⟩ := search_lanes t t.entries
    { order.foldl (relane t) w with m_best_header := none, m_best_invalid := none }
  have distinct : order.Nodup := permuted.nodup_iff.mpr (t.distinct.filter _)
  have right : ∀ q ∈ t.entries, q ∉ order → Folded t w q := by
    intro q member left_out
    rw [permuted.mem_iff] at left_out
    cases start : pindex_start with
    | none => exact absurd (by simp [affected, start, member]) left_out
    | some s =>
      subst start
      refine outside s rfl q member fun below => left_out ?_
      exact (BlockTree.mem_affected (known s rfl)).mpr ⟨member, below⟩
  refine ⟨?_, raw.trans (raw_of_pass t order w), ?_⟩
  · intro p member
    have whole : order = [] ++ order := rfl
    have folded := folded_of_pass whole distinct sorted right p member
    refine ⟨?_, ?_⟩
    · rw [recalculate, work]
      exact folded.work
    · rw [recalculate, penalty]
      exact folded.penalty
  · have empty : BestOf t { order.foldl (relane t) w with m_best_header := none, m_best_invalid := none }
        [] := by
      intro p member
      cases member
    have found := empty.search t.entries
    rw [List.nil_append] at found
    exact found

def smallTree : BlockTree where
  index
    | 0 => ⟨none, none, 0, 0x207fffff, 5, 0⟩
    | 1 => ⟨some 0, some 0, 1, 0x207fffff, 5, 1⟩
    | _ => ⟨some 0, some 0, 1, 0x207fffff, 5 ||| 512, 2⟩
  entries := [2, 0, 1]
  distinct := by decide
  parent := by
    intro p member q pprev
    simp only [List.mem_cons, List.not_mem_nil, or_false] at member
    rcases member with rfl | rfl | rfl <;> cases pprev <;> decide
  first := by
    intro p member pprev
    simp only [List.mem_cons, List.not_mem_nil, or_false] at member
    rcases member with rfl | rfl | rfl <;> cases pprev
    rfl
  skip := by
    intro p member
    simp only [List.mem_cons, List.not_mem_nil, or_false] at member
    rcases member with rfl | rfl | rfl <;> rfl

/-- Its lanes from nothing, and again from the full-red block, which has the work of its parent and a
penalty. -/
theorem lanes_are_folds_small : Folded smallTree (recalculate smallTree [2] (recalculate smallTree [0, 1, 2]
    ⟨fun _ => 0, fun _ => 0, fun _ => 0, [], none, none⟩)) 2 := by
  have first := (lanes_are_folds smallTree ⟨fun _ => 0, fun _ => 0, fun _ => 0, [], none, none⟩ none
    [0, 1, 2] (by simp) (by decide) (by decide) (by simp)).1
  exact (lanes_are_folds smallTree _ (some 2) [2] (by simp [smallTree]) (by decide) (by decide)
    fun _ _ p member _ => first p member).1 2 (by decide)

end WorkLanes

end TensorCash
