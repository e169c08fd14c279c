import Mathlib.Data.List.TakeWhile
import Mathlib.Data.Prod.Lex
import TensorCash.Primitives.Serialize

/-! `FindMostWorkChain`, the comparator of `node/blockstorage.cpp` and the mask of the reorg
gates. -/

namespace TensorCash

namespace ForkChoice

abbrev Ptr := Nat

structure CBlockIndex where
  pprev : Option Ptr
  nHeight : Nat
  nChainWork : Uint256
  nChainPenalty : Uint256
  nChainWorkRaw : Uint256
  nSequenceId : Int
  /-- `GetBlockProof`. -/
  blockProof : Uint256
  /-- `BLOCK_FULL_RED_LOCAL` or `BLOCK_MODEL_CHALLENGE_ZERO_WORK`. -/
  zeroWork : Bool
  /-- `BLOCK_FAILED_MASK`. -/
  failed : Bool
  /-- `BLOCK_HAVE_DATA`. -/
  haveData : Bool

inductive ReorgGateState where
  | PENDING
  | VETOED
deriving DecidableEq

inductive ReorgGatingMode where
  | BLOCK
  | MASK
deriving DecidableEq

structure ReorgGateEntry where
  gate_id : Nat
  gate_state : ReorgGateState
  anchor_hash : Uint256
  vetoed_at : Int
  veto_candidate_height : Int
  veto_margin_positive : Bool
  veto_raw_margin : Uint256
deriving DecidableEq

structure ReorgGatingConfig where
  enabled : Bool
  gating_mode : ReorgGatingMode
  veto_ttl_secs : Int
  veto_growth_blocks : Int

structure Chain where
  index : Ptr → CBlockIndex
  lookupBlockIndex : Uint256 → Option Ptr
  m_chain : List Ptr
  config : ReorgGatingConfig
  now : Int
  operatorAction : Bool
  /-- A block is one above its parent. -/
  heights : ∀ p q, (index p).pprev = some q → (index p).nHeight = (index q).nHeight + 1

variable (e : Chain)

def Chain.tip : Option Ptr := e.m_chain.getLast?

def Chain.contains (p : Ptr) : Bool := e.m_chain[(e.index p).nHeight]? = some p

def Chain.walkBack : Nat → Ptr → Option Ptr
  | 0, p => some p
  | steps + 1, p => (e.index p).pprev.bind (Chain.walkBack steps)

def Chain.getAncestor (p : Ptr) (height : Nat) : Option Ptr :=
  if (e.index p).nHeight < height then none else e.walkBack ((e.index p).nHeight - height) p

def compareEffectiveWork (pa pb : CBlockIndex) : Int :=
  let a_nonnegative := decide (pa.nChainPenalty ≤ pa.nChainWork)
  let b_nonnegative := decide (pb.nChainPenalty ≤ pb.nChainWork)
  if a_nonnegative ≠ b_nonnegative then if a_nonnegative then 1 else -1
  else if a_nonnegative then
    let a_effective := pa.nChainWork - pa.nChainPenalty
    let b_effective := pb.nChainWork - pb.nChainPenalty
    if b_effective < a_effective then 1 else if a_effective < b_effective then -1 else 0
  else
    let a_debt := pa.nChainPenalty - pa.nChainWork
    let b_debt := pb.nChainPenalty - pb.nChainWork
    if a_debt < b_debt then 1 else if b_debt < a_debt then -1 else 0

/-- `CBlockIndexPolicyComparator`: the first block is worse than the second. -/
def Chain.policyLess (a b : Ptr) : Bool :=
  let pa := e.index a
  let pb := e.index b
  if 0 < compareEffectiveWork pa pb then false
  else if compareEffectiveWork pa pb < 0 then true
  else if pa.nChainPenalty < pb.nChainPenalty then false
  else if pb.nChainPenalty < pa.nChainPenalty then true
  else if pa.zeroWork ≠ pb.zeroWork then pa.zeroWork
  else if pa.nSequenceId < pb.nSequenceId then false
  else if pb.nSequenceId < pa.nSequenceId then true
  else b < a

def vetoOver (entry : ReorgGateEntry) (candidate : CBlockIndex) (tip_raw_work : Uint256) : Bool :=
  let quantum : Uint256 := if 0 < e.config.veto_growth_blocks then
    candidate.blockProof * Fin.ofNat _ (e.config.veto_growth_blocks.toNat % 2 ^ 32) else 0
  let escape_threshold := (if entry.veto_margin_positive then entry.veto_raw_margin else 0) + quantum
  e.config.veto_ttl_secs < e.now - entry.vetoed_at ||
    e.config.veto_growth_blocks ≤ candidate.nHeight - entry.veto_candidate_height ||
    (tip_raw_work < candidate.nChainWorkRaw && escape_threshold < candidate.nChainWorkRaw - tip_raw_work)

def removeGate (gates : List ReorgGateEntry) (gate_id : Nat) : List ReorgGateEntry :=
  gates.filter fun g => g.gate_id ≠ gate_id

def evaluateMask (gates : List ReorgGateEntry) (gate_id : Nat) (candidate : CBlockIndex)
    (tip_raw_work : Uint256) : Bool × List ReorgGateEntry :=
  match gates.find? fun g => g.gate_id = gate_id with
  | none => (false, gates)
  | some entry =>
    match entry.gate_state with
    | .PENDING => (e.config.gating_mode = .MASK, gates)
    | .VETOED =>
      if vetoOver e entry candidate tip_raw_work then (false, removeGate gates gate_id)
      else (true, gates)

def Chain.tipRawWork : Uint256 := (e.tip.map fun p => (e.index p).nChainWorkRaw).getD 0

def maskLoop (candidate : Ptr) : List (Nat × Uint256) → List ReorgGateEntry → Bool × List ReorgGateEntry
  | [], gates => (false, gates)
  | (gate_id, anchor_hash) :: rest, gates =>
    match e.lookupBlockIndex anchor_hash with
    | none => maskLoop candidate rest gates
    | some anchor =>
      if e.contains anchor then maskLoop candidate rest (removeGate gates gate_id)
      else if e.getAncestor candidate (e.index anchor).nHeight ≠ some anchor then
        maskLoop candidate rest gates
      else
        match evaluateMask e gates gate_id (e.index candidate) e.tipRawWork with
        | (true, gates) => (true, gates)
        | (false, gates) => maskLoop candidate rest gates

def isReorgGateMaskedCandidate (candidate : Ptr) (gates : List ReorgGateEntry) : Bool × List ReorgGateEntry :=
  if e.operatorAction then (false, gates)
  else if ¬ e.config.enabled then (false, gates)
  else maskLoop e candidate (gates.map fun g => (g.gate_id, g.anchor_hash)) gates

/-- The candidates stand from the best to the worst. -/
structure Search where
  candidates : List Ptr
  gates : List ReorgGateEntry
  /-- The blocks that have been marked `BLOCK_FAILED_CHILD` on the way. -/
  marked : List Ptr := []
  m_best_invalid : Option Ptr := none
  m_blocks_unlinked : List (Option Ptr × Ptr) := []

def Chain.improves (p : Ptr) : Bool := e.tip.all fun tip => e.policyLess tip p

/-- The walk from the best candidate down; nothing means the tip. -/
def selectCandidate : List Ptr → List ReorgGateEntry → Option Ptr × List ReorgGateEntry
  | [], gates => (none, gates)
  | c :: rest, gates =>
    if ¬ e.improves c then (none, gates)
    else
      match isReorgGateMaskedCandidate e c gates with
      | (true, gates) => selectCandidate rest gates
      | (false, gates) => (some c, gates)

def Chain.offChain : Nat → Ptr → List Ptr
  | 0, _ => []
  | fuel + 1, p =>
    if e.contains p then []
    else p :: ((e.index p).pprev.map (Chain.offChain fuel)).getD []

def Chain.path (p : Ptr) : List Ptr := e.offChain ((e.index p).nHeight + 1) p

def Search.failed (s : Search) (p : Ptr) : Bool := (e.index p).failed || p ∈ s.marked

def Search.bad (s : Search) (p : Ptr) : Bool := s.failed e p || !(e.index p).haveData

/-- Takes a branch out of the candidates, down to the first bad block. -/
def Search.discard (s : Search) (pindexNew : Ptr) (above : List Ptr) (pindexTest : Ptr) : Search :=
  let fFailedChain := s.failed e pindexTest
  { s with
    candidates := s.candidates.filter fun c => c ∉ above ++ [pindexTest]
    marked := if fFailedChain then s.marked ++ above else s.marked
    m_best_invalid :=
      if fFailedChain ∧ s.m_best_invalid.all fun b =>
          (e.index b).nChainWork < (e.index pindexNew).nChainWork then some pindexNew
      else s.m_best_invalid
    m_blocks_unlinked :=
      if fFailedChain then s.m_blocks_unlinked
      else s.m_blocks_unlinked ++ above.map fun p => ((e.index p).pprev, p) }

/-- `FindMostWorkChain`. Every round takes a candidate away. -/
def findMostWorkChain : Nat → Search → Option (Option Ptr × Search)
  | 0, _ => none
  | fuel + 1, s =>
    match selectCandidate e s.candidates s.gates with
    | (none, gates) => some (e.tip, { s with gates })
    | (some pindexNew, gates) =>
      let above := (e.path pindexNew).takeWhile fun p => !s.bad e p
      match (e.path pindexNew).dropWhile fun p => !s.bad e p with
      | [] => some (some pindexNew, { s with gates })
      | pindexTest :: _ => findMostWorkChain fuel ({ s with gates }.discard e pindexNew above pindexTest)

def effectiveWork (p : CBlockIndex) : Int := (p.nChainWork.val : Int) - p.nChainPenalty.val

theorem compareEffectiveWork_eq (pa pb : CBlockIndex) : compareEffectiveWork pa pb =
      if effectiveWork pb < effectiveWork pa then 1
      else if effectiveWork pa < effectiveWork pb then -1 else 0 := by
  unfold compareEffectiveWork effectiveWork
  -- Both differences are taken the way round in which they do not wrap.
  by_cases a : pa.nChainPenalty ≤ pa.nChainWork <;> by_cases b : pb.nChainPenalty ≤ pb.nChainWork
  · have va := Fin.sub_val_of_le a
    have vb := Fin.sub_val_of_le b
    rw [Fin.le_def] at a b
    simp only [a, b, Fin.lt_def, va, vb, Fin.le_def, decide_true, ne_eq, not_true_eq_false, if_false, if_true]
    split_ifs <;> omega
  · rw [Fin.le_def] at a b
    simp only [a, b, Fin.le_def, decide_true, decide_false, ne_eq, Bool.true_eq_false, not_false_eq_true, if_true]
    split_ifs <;> omega
  · rw [Fin.le_def] at a b
    simp only [a, b, Fin.le_def, decide_true, decide_false, ne_eq, Bool.false_eq_true, not_false_eq_true,
      if_true, if_false]
    split_ifs <;> omega
  · have va := Fin.sub_val_of_le (le_of_not_ge a)
    have vb := Fin.sub_val_of_le (le_of_not_ge b)
    rw [Fin.le_def] at a b
    simp only [a, b, Fin.lt_def, va, vb, Fin.le_def, decide_false, ne_eq, not_true_eq_false, if_false,
      Bool.false_eq_true]
    split_ifs <;> omega

def Chain.rank (p : Ptr) : ℤ ×ₗ ℤ ×ₗ ℤ ×ₗ ℤ ×ₗ ℤ :=
  toLex (effectiveWork (e.index p), toLex (-(e.index p).nChainPenalty.val,
    toLex (if (e.index p).zeroWork then 0 else 1, toLex (-(e.index p).nSequenceId, -(p : ℤ)))))

theorem level_iff {α : Type*} [LinearOrder α] {x y : ℤ} {u v : α} {better worse : Prop}
    [Decidable better] [Decidable worse] {below : Bool} (above : better ↔ y < x) (under : worse ↔ x < y)
    (rest : below = true ↔ u < v) :
    (if better then false else if worse then true else below) = true ↔ toLex (x, u) < toLex (y, v) := by
  rw [Prod.Lex.toLex_lt_toLex]
  rcases lt_trichotomy x y with less | rfl | more
  · simp [above, under, less, not_lt_of_gt less]
  · simp [above, under, rest]
  · simp [above, more, not_lt_of_gt more, more.ne']

variable {above below : List Ptr} {b p pindexNew pindexTest : Ptr} {g : ReorgGateEntry}

theorem policyLess_iff {a : Ptr} : e.policyLess a b = true ↔ e.rank a < e.rank b := by
  unfold Chain.policyLess Chain.rank
  refine level_iff ?_ ?_ (level_iff ?_ ?_ ?_)
  · rw [compareEffectiveWork_eq]
    split_ifs <;> simp_all
  · rw [compareEffectiveWork_eq]
    split_ifs with more less <;> simp_all [le_of_lt]
  · rw [Fin.lt_def]
    omega
  · rw [Fin.lt_def]
    omega
  · have last : ∀ z : ℤ, ((if (e.index a).nSequenceId < (e.index b).nSequenceId then false
        else if (e.index b).nSequenceId < (e.index a).nSequenceId then true
          else decide (b < a)) = true ↔ toLex (z, toLex (-(e.index a).nSequenceId, -(a : ℤ))) <
          toLex (z, toLex (-(e.index b).nSequenceId, -(b : ℤ)))) := by
      intro z
      rw [Prod.Lex.toLex_lt_toLex]
      simp only [lt_irrefl, true_and, false_or]
      refine level_iff (by omega) (by omega) ?_
      rw [decide_eq_true_iff, neg_lt_neg_iff, Nat.cast_lt]
    cases first : (e.index a).zeroWork <;> cases second : (e.index b).zeroWork
    · simpa using last 1
    · simp [Prod.Lex.toLex_lt_toLex]
    · simp [Prod.Lex.toLex_lt_toLex]
    · simpa using last 0

theorem rank_injective : Function.Injective e.rank := by
  intro a b same
  have last := congrArg (fun r => (ofLex (ofLex (ofLex (ofLex r).2).2).2).2) same
  simpa [Chain.rank] using last

def Covers (g : ReorgGateEntry) (c : Ptr) : Prop :=
  ∃ anchor, e.lookupBlockIndex g.anchor_hash = some anchor ∧ e.contains anchor = false ∧
    e.getAncestor c (e.index anchor).nHeight = some anchor

/-- A candidate behind a veto, or behind a pending gate in mask mode. -/
def Masked (gates : List ReorgGateEntry) (c : Ptr) : Prop :=
  ∃ g ∈ gates, Covers e g c ∧ (g.gate_state = .VETOED ∨ e.config.gating_mode = .MASK)

structure Standing (gates : List ReorgGateEntry) (candidates : List Ptr) : Prop where
  ids : ∀ g ∈ gates, ∀ g' ∈ gates, g.gate_id = g'.gate_id → g = g'
  quiet : e.operatorAction = false
  /-- Only an enabled manager arms gates. -/
  armed : e.config.enabled = true ∨ gates = []
  vetoes : ∀ g ∈ gates, g.gate_state = .VETOED → ∀ c ∈ candidates, Covers e g c →
    vetoOver e g (e.index c) e.tipRawWork = false

/-- Some gates are gone, but none that could mask a candidate. -/
structure Kept (start gates : List ReorgGateEntry) : Prop where
  among : ∀ g ∈ gates, g ∈ start
  gone : ∀ g ∈ start, (∃ c, Covers e g c) → g ∈ gates

variable {e}

theorem Kept.refl (gates : List ReorgGateEntry) : Kept e gates gates :=
  ⟨fun _ member => member, fun _ member _ => member⟩

theorem Kept.masked_iff {start gates : List ReorgGateEntry} (kept : Kept e start gates) (c : Ptr) :
    Masked e gates c ↔ Masked e start c :=
  ⟨fun ⟨g, member, covers, state⟩ => ⟨g, kept.among g member, covers, state⟩,
    fun ⟨g, member, covers, state⟩ => ⟨g, kept.gone g member ⟨c, covers⟩, covers, state⟩⟩

section Mask

variable {start gates : List ReorgGateEntry} {candidates : List Ptr} {c : Ptr}

theorem covers_iff {anchor : Ptr} (known : e.lookupBlockIndex g.anchor_hash = some anchor) :
    Covers e g c ↔ e.contains anchor = false ∧ e.getAncestor c (e.index anchor).nHeight = some anchor := by
  simp only [Covers, known, Option.some.injEq, exists_eq_left']

theorem Kept.removeGate (standing : Standing e start candidates)
    (kept : Kept e start gates) (member : g ∈ start) {anchor : Ptr}
    (known : e.lookupBlockIndex g.anchor_hash = some anchor) (active : e.contains anchor = true) :
    Kept e start (removeGate gates g.gate_id) := by
  refine ⟨fun h listed => kept.among h (List.mem_filter.1 listed).1, fun h listed covers => ?_⟩
  refine List.mem_filter.2 ⟨kept.gone h listed covers, ?_⟩
  simp only [ne_eq, decide_not, Bool.not_eq_true', decide_eq_false_iff_not]
  intro same
  obtain rfl := standing.ids h listed g member same
  obtain ⟨_, covers⟩ := covers
  have off := ((covers_iff known).1 covers).1
  rw [active] at off
  cases off

theorem find?_gate (standing : Standing e start candidates) (kept : Kept e start gates) (member : g ∈ gates) :
    (gates.find? fun h => h.gate_id = g.gate_id) = some g := by
  cases found : gates.find? fun h => h.gate_id = g.gate_id with
  | none => simpa using List.find?_eq_none.1 found g member
  | some h =>
    have same : h.gate_id = g.gate_id := by simpa using List.find?_some found
    rw [standing.ids h (kept.among h (List.mem_of_find?_eq_some found)) g (kept.among g member) same]

theorem maskLoop_spec (standing : Standing e start candidates) (listed : c ∈ candidates)
    {todo : List ReorgGateEntry} (among : ∀ g ∈ todo, g ∈ start) (kept : Kept e start gates) :
    ((maskLoop e c (todo.map fun g => (g.gate_id, g.anchor_hash)) gates).1 = true ↔ Masked e todo c) ∧
      Kept e start (maskLoop e c (todo.map fun g => (g.gate_id, g.anchor_hash)) gates).2 := by
  induction todo generalizing gates with
  | nil => exact ⟨by simp [maskLoop, Masked], kept⟩
  | cons g rest ih =>
    obtain ⟨here, others⟩ := List.forall_mem_cons.1 among
    -- A gate that does not mask leaves the answer to the rest.
    have skip : ¬ (Covers e g c ∧ (g.gate_state = .VETOED ∨ e.config.gating_mode = .MASK)) →
        (Masked e (g :: rest) c ↔ Masked e rest c) := fun passes => by
      simp only [Masked, List.mem_cons, exists_eq_or_imp, or_iff_right passes]
    rw [List.map_cons, maskLoop]
    cases known : e.lookupBlockIndex g.anchor_hash with
    | none =>
      rw [skip fun ⟨⟨_, known', _⟩, _⟩ => by rw [known] at known'; cases known']
      exact ih others kept
    | some anchor =>
      dsimp only
      by_cases active : e.contains anchor = true
      · rw [if_pos active, skip]
        · exact ih others (kept.removeGate standing here known active)
        · rintro ⟨covers, _⟩
          have off := ((covers_iff known).1 covers).1
          rw [active] at off
          cases off
      · rw [if_neg active]
        by_cases descends : e.getAncestor c (e.index anchor).nHeight = some anchor
        · have covers : Covers e g c := (covers_iff known).2 ⟨by simpa using active, descends⟩
          rw [if_neg (not_not_intro descends), evaluateMask, find?_gate standing kept (kept.gone g here ⟨c, covers⟩)]
          cases state : g.gate_state with
          | PENDING =>
            -- A pending gate masks in mask mode only.
            by_cases mask : e.config.gating_mode = .MASK
            · simp only [state, mask, decide_true]
              exact ⟨⟨fun _ => ⟨g, .head _, covers, .inr mask⟩, fun _ => trivial⟩, kept⟩
            · simp only [state, mask, decide_false]
              rw [skip (by simp [state, mask])]
              exact ih others kept
          | VETOED =>
            simp only [state, standing.vetoes g here state c listed covers, Bool.false_eq_true, if_false]
            exact ⟨⟨fun _ => ⟨g, .head _, covers, .inl state⟩, fun _ => trivial⟩, kept⟩
        · rw [if_pos descends, skip]
          · exact ih others kept
          · rintro ⟨covers, _⟩
            exact descends ((covers_iff known).1 covers).2

theorem isReorgGateMaskedCandidate_spec (standing : Standing e start candidates)
    (listed : c ∈ candidates) (kept : Kept e start gates) :
    ((isReorgGateMaskedCandidate e c gates).1 = true ↔ Masked e start c) ∧
      Kept e start (isReorgGateMaskedCandidate e c gates).2 := by
  unfold isReorgGateMaskedCandidate
  rw [standing.quiet, if_neg (by decide)]
  by_cases enabled : e.config.enabled = true
  · rw [if_neg (not_not_intro enabled), ← kept.masked_iff c]
    exact maskLoop_spec standing listed kept.among kept
  · rw [if_pos enabled]
    refine ⟨?_, kept⟩
    rw [standing.armed.resolve_left enabled]
    simp [Masked]

theorem improves_of_less (worse : e.policyLess b c = true) (improves : e.improves b = true) :
    e.improves c = true := by
  unfold Chain.improves at improves ⊢
  cases tip : e.tip with
  | none => rfl
  | some t =>
    rw [tip] at improves
    have first : e.rank t < e.rank b := (policyLess_iff e).1 (by simpa using improves)
    have second : e.rank b < e.rank c := (policyLess_iff e).1 worse
    simpa using (policyLess_iff e).2 (first.trans second)

theorem selectCandidate_spec (standing : Standing e start candidates) {todo : List Ptr}
    (listed : ∀ c ∈ todo, c ∈ candidates)
    (sorted : todo.Pairwise fun a b => e.policyLess b a = true) (kept : Kept e start gates) :
    Kept e start (selectCandidate e todo gates).2 ∧ match (selectCandidate e todo gates).1 with
      | none => ∀ c ∈ todo, e.improves c = true → Masked e start c
      | some c => c ∈ todo ∧ e.improves c = true ∧ ¬ Masked e start c ∧
          ∀ b ∈ todo, e.policyLess c b = true → Masked e start b := by
  induction todo generalizing gates with
  | nil => exact ⟨kept, by simp [selectCandidate]⟩
  | cons c rest ih =>
    obtain ⟨here, others⟩ := List.forall_mem_cons.1 listed
    obtain ⟨worse, sorted⟩ := List.pairwise_cons.1 sorted
    rw [selectCandidate]
    by_cases improves : e.improves c = true
    · obtain ⟨verdict, kept'⟩ := isReorgGateMaskedCandidate_spec standing here kept
      rw [if_neg (not_not_intro improves)]
      cases answer : isReorgGateMaskedCandidate e c gates with
      | mk masked gates' =>
        rw [answer] at verdict kept'
        cases masked with
        | true =>
          -- A masked candidate is passed over.
          obtain ⟨final, best⟩ := ih others sorted kept'
          refine ⟨final, ?_⟩
          dsimp only
          split
          · next found =>
            rw [found] at best
            exact List.forall_mem_cons.2 ⟨fun _ => verdict.1 rfl, best⟩
          · next found =>
            rw [found] at best
            obtain ⟨member, better, free, above⟩ := best
            exact ⟨.tail _ member, better, free, List.forall_mem_cons.2 ⟨fun _ => verdict.1 rfl, above⟩⟩
        | false =>
          refine ⟨kept', .head _, improves, fun masked => ?_, ?_⟩
          · have := verdict.2 masked
            cases this
          · rintro b member better
            -- Everything behind the first is worse.
            rw [policyLess_iff] at better
            rcases List.mem_cons.1 member with rfl | behind
            · exact absurd better (lt_irrefl _)
            · exact absurd better (lt_asymm ((policyLess_iff e).1 (worse b behind)))
    · rw [if_pos improves]
      refine ⟨kept, ?_⟩
      -- The rest is worse than a candidate that does not improve on the tip.
      rintro b member better
      rcases List.mem_cons.1 member with rfl | behind
      · exact absurd better improves
      · exact absurd (improves_of_less (worse b behind) better) improves

end Mask

theorem path_eq (p : Ptr) :
    e.path p = if e.contains p then [] else p :: ((e.index p).pprev.map e.path).getD [] := by
  rw [Chain.path, Chain.offChain]
  cases parent : (e.index p).pprev with
  | none => rfl
  | some q => rw [Option.map_some, Option.map_some, e.heights p q parent, Chain.path]

theorem path_of_split {q : Ptr} (split_ : e.path q = above ++ p :: below) : e.path p = p :: below := by
  induction above generalizing q with
  | nil =>
    have whole := split_
    rw [path_eq] at split_
    split_ifs at split_ with active
    · cases split_
    · obtain rfl := (List.cons.inj split_).1
      exact whole
  | cons first above ih =>
    rw [path_eq] at split_
    split_ifs at split_ with active
    · cases split_
    · have rest := (List.cons.inj split_).2
      cases parent : (e.index q).pprev with
      | none =>
        rw [parent] at rest
        exact absurd rest.symm (by simp)
      | some next =>
        rw [parent] at rest
        exact ih rest

variable (e) in
/-- Down to the active chain there are only blocks with data and without failure flags. -/
def Usable (s : Search) (p : Ptr) : Prop := ∀ b ∈ e.path p, s.bad e b = false

theorem Usable.of_mem {s : Search} (usable : Usable e s p) (member : b ∈ e.path p) : Usable e s b := by
  obtain ⟨above, below, split_⟩ := List.append_of_mem member
  intro a inside
  rw [path_of_split split_] at inside
  exact usable a (by rw [split_]; exact List.mem_append_right _ inside)

variable (e) in
/-- What the rounds have left: only blocks of unusable branches are erased or marked. -/
structure Progress (start s : Search) : Prop where
  kept : Kept e start.gates s.gates
  listed : ∀ c ∈ s.candidates, c ∈ start.candidates
  sorted : s.candidates.Pairwise fun a b => e.policyLess b a = true
  erased : ∀ c ∈ start.candidates, c ∉ s.candidates → ¬ Usable e start c
  marks : ∀ p ∈ start.marked, p ∈ s.marked
  unusable : ∀ p ∈ s.marked, p ∈ start.marked ∨ ¬ Usable e start p

section Rounds

variable {start s : Search}

theorem Progress.usable_iff (progress : Progress e start s) (p : Ptr) : Usable e s p ↔ Usable e start p := by
  constructor
  · intro usable b member
    have good := usable b member
    simp only [Search.bad, Search.failed, Bool.or_eq_false_iff, decide_eq_false_iff_not] at good ⊢
    exact ⟨⟨good.1.1, fun marked => good.1.2 (progress.marks b marked)⟩, good.2⟩
  · intro usable b member
    have good := usable b member
    simp only [Search.bad, Search.failed, Bool.or_eq_false_iff, decide_eq_false_iff_not] at good ⊢
    refine ⟨⟨good.1.1, fun marked => ?_⟩, good.2⟩
    -- A new mark would stand on an unusable branch.
    rcases progress.unusable b marked with old | new
    · exact good.1.2 old
    · exact new (usable.of_mem member)

theorem Progress.not_usable (progress : Progress e start s)
    (split_ : e.path pindexNew = above ++ pindexTest :: below) (bad : s.bad e pindexTest = true)
    (member : p ∈ above ++ [pindexTest]) : ¬ Usable e start p := by
  intro usable
  obtain ⟨front, back, cut⟩ := List.append_of_mem member
  have whole : e.path pindexNew = front ++ p :: (back ++ below) := by
    rw [split_, ← List.singleton_append, ← List.append_assoc, cut]
    simp
  -- The bad block is the last one that is cut off, so it is on the branch of the block.
  have ends : pindexTest ∈ p :: back := by
    have tail := congrArg List.getLast? cut
    rw [List.getLast?_append_of_ne_nil _ (by simp), List.getLast?_append_of_ne_nil _ (by simp)] at tail
    exact List.mem_of_getLast? tail.symm
  have last : pindexTest ∈ p :: (back ++ below) := by
    rw [← List.cons_append]
    exact List.mem_append_left _ ends
  have good := (progress.usable_iff p).2 usable pindexTest (path_of_split whole ▸ last)
  rw [good] at bad
  cases bad

theorem Progress.discard (progress : Progress e start s) {gates : List ReorgGateEntry}
    (kept : Kept e start.gates gates) (split_ : e.path pindexNew = above ++ pindexTest :: below)
    (bad : s.bad e pindexTest = true) :
    Progress e start ({ s with gates }.discard e pindexNew above pindexTest) := by
  have unusable : ∀ p ∈ above ++ [pindexTest], ¬ Usable e start p := fun _ member =>
    progress.not_usable split_ bad member
  refine ⟨kept, fun c member => progress.listed c (List.mem_filter.1 member).1,
    progress.sorted.filter _, fun c member gone => ?_, fun p member => ?_, fun p member => ?_⟩
  · -- What this round erases belongs to the discarded branch.
    by_cases there : c ∈ s.candidates
    · refine unusable c ?_
      by_contra spared
      exact gone (List.mem_filter.2 ⟨there, by simpa using spared⟩)
    · exact progress.erased c member there
  · dsimp only [Search.discard]
    split_ifs
    · exact List.mem_append_left _ (progress.marks p member)
    · exact progress.marks p member
  · -- Only the blocks above a failed one are marked.
    dsimp only [Search.discard] at member
    split_ifs at member
    · rcases List.mem_append.1 member with old | new
      · exact progress.unusable p old
      · exact .inr (unusable p (List.mem_append_left _ new))
    · exact progress.unusable p member

theorem length_discard_lt (split_ : e.path pindexNew = above ++ pindexTest :: below)
    (member : pindexNew ∈ s.candidates) :
    (s.discard e pindexNew above pindexTest).candidates.length < s.candidates.length := by
  have first : pindexNew ∈ above ++ [pindexTest] := by
    have head := split_
    rw [path_eq] at head
    split_ifs at head
    · simp at head
    · cases above with
      | nil => exact List.mem_singleton.2 (List.cons.inj head).1
      | cons a rest => exact List.mem_append_left _ ((List.cons.inj head).1 ▸ .head _)
  exact List.length_filter_lt_length_iff_exists.2
    ⟨pindexNew, member, by simpa [or_iff_not_imp_left] using first⟩

variable (e) in
def BestUsable (s : Search) : Option Ptr → Prop := fun result =>
  (result = e.tip ∧ ∀ c ∈ s.candidates, e.improves c = true → Masked e s.gates c ∨ ¬ Usable e s c) ∨
    ∃ c ∈ s.candidates, result = some c ∧ e.improves c = true ∧ ¬ Masked e s.gates c ∧ Usable e s c ∧
      ∀ b ∈ s.candidates, e.policyLess c b = true → Masked e s.gates b ∨ ¬ Usable e s b

theorem findMostWorkChain_progress {fuel : Nat} (standing : Standing e start.gates start.candidates)
    (progress : Progress e start s) (enough : s.candidates.length < fuel) :
    ∃ result s', findMostWorkChain e fuel s = some (result, s') ∧ Progress e start s' ∧
      BestUsable e start result := by
  induction fuel generalizing s with
  | zero => omega
  | succ fuel ih =>
    obtain ⟨kept, choice⟩ := selectCandidate_spec standing progress.listed progress.sorted progress.kept
    -- A candidate that is not there any more was unusable from the start.
    have covered : ∀ P : Ptr → Prop, (∀ b ∈ s.candidates, P b → Masked e start.gates b) →
        ∀ b ∈ start.candidates, P b → Masked e start.gates b ∨ ¬ Usable e start b := by
      intro P known b member holds
      by_cases there : b ∈ s.candidates
      · exact .inl (known b there holds)
      · exact .inr (progress.erased b member there)
    rw [findMostWorkChain]
    cases answer : selectCandidate e s.candidates s.gates with
    | mk chosen gates =>
      rw [answer] at kept choice
      have moved : Progress e start { s with gates } := { progress with kept }
      cases chosen with
      | none =>
        -- The tip is reported.
        exact ⟨_, _, rfl, moved, .inl ⟨rfl, covered (fun c => e.improves c = true) choice⟩⟩
      | some pindexNew =>
        obtain ⟨member, improves, free, above⟩ := choice
        dsimp only
        have pieces := List.takeWhile_append_dropWhile (l := e.path pindexNew) (p := fun p => !s.bad e p)
        cases rest : (e.path pindexNew).dropWhile fun p => !s.bad e p with
        | nil =>
          refine ⟨_, _, rfl, moved, .inr ⟨pindexNew, progress.listed _ member, rfl, improves, free, ?_,
            covered (fun b => e.policyLess pindexNew b = true) above⟩⟩
          refine (progress.usable_iff pindexNew).1 fun b inside => ?_
          simpa using List.dropWhile_eq_nil_iff.1 rest b inside
        | cons pindexTest below =>
          -- The branch is discarded, and the next round has fewer candidates.
          rw [rest] at pieces
          have bad : s.bad e pindexTest = true := by
            have stopped := List.head?_dropWhile_not (fun p => !s.bad e p) (e.path pindexNew)
            rw [rest] at stopped
            simpa using stopped
          have shorter := length_discard_lt (s := { s with gates }) pieces.symm member
          exact ih (progress.discard kept pieces.symm bad) (by dsimp only at shorter; omega)

end Rounds

/-- **Fork choice.** The comparator is a strict total order by work less penalty first, and as long
as the gates stand the search ends with the tip or the best unmasked usable candidate that improves
on it. -/
theorem fork_choice_best (e : Chain) (s : Search) (sorted : s.candidates.Pairwise fun a b => e.policyLess b a = true)
    (standing : Standing e s.gates s.candidates) : ((∀ a, e.policyLess a a = false) ∧
      (∀ a b c, e.policyLess a b = true → e.policyLess b c = true → e.policyLess a c = true) ∧
      (∀ a b, a ≠ b → e.policyLess a b = true ∨ e.policyLess b a = true) ∧
      ∀ a b, effectiveWork (e.index a) < effectiveWork (e.index b) → e.policyLess a b = true) ∧
    ∃ result s', findMostWorkChain e (s.candidates.length + 1) s = some (result, s') ∧ BestUsable e s result := by
  refine ⟨⟨fun a => ?_, fun a b c first second => ?_, fun a b differ => ?_, fun a b less => ?_⟩, ?_⟩
  · rw [Bool.eq_false_iff, Ne, policyLess_iff]
    exact lt_irrefl _
  · rw [policyLess_iff] at first second ⊢
    exact first.trans second
  · rw [policyLess_iff, policyLess_iff]
    exact lt_or_gt_of_ne fun same => differ (rank_injective e same)
  · rw [policyLess_iff]
    exact Prod.Lex.toLex_lt_toLex.2 (.inl less)
  · have begun : Progress e s s := ⟨.refl _, fun _ member => member, sorted,
      fun _ member gone => absurd member gone, fun _ member => member, fun _ => .inl⟩
    obtain ⟨result, s', found, _, best⟩ := findMostWorkChain_progress standing begun (Nat.lt_succ_self _)
    exact ⟨result, s', found, best⟩

def twoBranches : Chain where
  index p :=
    { pprev := if p = 1 ∨ p = 2 then some 0 else none
      nHeight := if p = 1 ∨ p = 2 then 1 else 0
      nChainWork := Fin.ofNat _ (p + 1), nChainPenalty := 0, nChainWorkRaw := 0
      nSequenceId := 0, blockProof := 1, zeroWork := false, failed := false, haveData := true }
  lookupBlockIndex hash := if hash = 9 then some 2 else none
  m_chain := [0]
  config := { enabled := true, gating_mode := .BLOCK, veto_ttl_secs := 60, veto_growth_blocks := 6 }
  now := 0
  operatorAction := false
  heights p q parent := by
    by_cases above : p = 1 ∨ p = 2
    · simp only [above, if_true, Option.some.injEq] at parent ⊢
      simp [← parent]
    · simp [above] at parent

def vetoedSearch : Search where
  candidates := [2, 1, 0]
  gates := [{ gate_id := 1, gate_state := .VETOED, anchor_hash := 9, vetoed_at := 0
              veto_candidate_height := 1, veto_margin_positive := false, veto_raw_margin := 0 }]

theorem fork_choice_best_vetoed : (findMostWorkChain twoBranches 4 vetoedSearch).map Prod.fst = some (some 1) ∧
      ∃ result s', findMostWorkChain twoBranches 4 vetoedSearch = some (result, s') ∧
        BestUsable twoBranches vetoedSearch result := by
  refine ⟨by decide, (fork_choice_best twoBranches vetoedSearch (by decide) ⟨?_, rfl, .inl rfl, ?_⟩).2⟩
  · decide
  · have steady : ∀ g ∈ vetoedSearch.gates, ∀ c ∈ vetoedSearch.candidates,
        vetoOver twoBranches g (twoBranches.index c) twoBranches.tipRawWork = false := by
      decide
    exact fun g listed _ c member _ => steady g listed c member

end ForkChoice

end TensorCash
